import MartCommon.Log.SinkSafety

namespace MartCommon.Log

open Library

variable {Sink Thread : Type} [DecidableEq Sink] [DecidableEq Thread]

/-- The texts that the calls of a thread have for a sink. -/
def asked (thread : Thread) (sink : Sink) (history : List (SinkEvent Sink Thread)) :
    List (Text × Level) :=
  history.flatMap fun
    | .handed other texts =>
        if other = thread then (texts.filter fun entry => entry.1 = sink).map Prod.snd else []
    | _ => []

/-- The texts of a thread that a sink has checked, with the outcomes. -/
def checks (thread : Thread) (sink : Sink) (history : List (SinkEvent Sink Thread)) :
    List ((Text × Level) × Bool) :=
  history.filterMap fun
    | .checked other place msg lvl passed =>
        if other = thread ∧ place = sink then some ((msg, lvl), passed) else none
    | _ => none

/-- The texts of a thread whose output a sink has begun. -/
def writes (thread : Thread) (sink : Sink) (history : List (SinkEvent Sink Thread)) :
    List (Text × Level) :=
  history.filterMap fun
    | .entered other place (.write msg lvl) =>
        if other = thread ∧ place = sink then some (msg, lvl) else none
    | _ => none

/-- The texts that passed their check. -/
def passed (checks : List ((Text × Level) × Bool)) : List (Text × Level) :=
  (checks.filter Prod.snd).map Prod.fst

/-- The texts for a sink that the loop of a thread has yet to hand over. -/
def Writer.pending (sink : Sink) (writer : Writer Sink) : List (Text × Level) :=
  (writer.todo.filter fun entry => entry.1 = sink).map Prod.snd

/-- A text that has passed its check and whose output has not begun. -/
def Stage.held : Stage → List (Text × Level)
  | .choosing (.write msg lvl) => [(msg, lvl)]
  | .waiting (.write msg lvl) => [(msg, lvl)]
  | _ => []

/-- The text that a thread holds in front of the output of a sink. -/
def Writer.held (sink : Sink) (writer : Writer Sink) : List (Text × Level) :=
  (writer.at sink).elim [] Stage.held

/-- Each text of a thread is checked once and in its order, and the output of each one that passes is
begun once and in its order. -/
structure Delivered (thread : Thread) (sink : Sink) (history : List (SinkEvent Sink Thread))
    (writer : Writer Sink) : Prop where
  checked : asked thread sink history = (checks thread sink history).map Prod.fst ++ writer.pending sink
  begun : passed (checks thread sink history) = writes thread sink history ++ writer.held sink

section Steps

variable {thread : Thread} {sink : Sink} {history : List (SinkEvent Sink Thread)}
  {before after : Sinks Sink Thread} {event : SinkEvent Sink Thread} {writer later : Writer Sink}

/-- An event that is none of the thread at the sink. -/
def SinkEvent.Foreign (thread : Thread) (sink : Sink) (event : SinkEvent Sink Thread) : Prop :=
  asked thread sink [event] = [] ∧ checks thread sink [event] = [] ∧ writes thread sink [event] = []

theorem asked_append (first second : List (SinkEvent Sink Thread)) :
    asked thread sink (first ++ second) = asked thread sink first ++ asked thread sink second :=
  List.flatMap_append

theorem checks_append (first second : List (SinkEvent Sink Thread)) :
    checks thread sink (first ++ second) = checks thread sink first ++ checks thread sink second :=
  List.filterMap_append

theorem writes_append (first second : List (SinkEvent Sink Thread)) :
    writes thread sink (first ++ second) = writes thread sink first ++ writes thread sink second :=
  List.filterMap_append

theorem passed_append (first second : List ((Text × Level) × Bool)) :
    passed (first ++ second) = passed first ++ passed second := by
  rw [passed, List.filter_append, List.map_append]
  rfl

/-- The balance of one step: what is new in each of the lists. -/
theorem Delivered.step (delivered : Delivered thread sink history writer)
    (checked : writer.pending sink ++ asked thread sink [event] =
      (checks thread sink [event]).map Prod.fst ++ later.pending sink)
    (begun : writer.held sink ++ passed (checks thread sink [event]) =
      writes thread sink [event] ++ later.held sink) :
    Delivered thread sink (history ++ [event]) later := by
  constructor
  · rw [asked_append, checks_append, delivered.checked, List.append_assoc, checked, List.map_append,
      List.append_assoc]
  · rw [checks_append, writes_append, passed_append, delivered.begun, List.append_assoc, begun,
      List.append_assoc]

theorem Delivered.foreign (delivered : Delivered thread sink history writer)
    (foreign : event.Foreign thread sink) (todo : later.pending sink = writer.pending sink)
    (place : later.held sink = writer.held sink) :
    Delivered thread sink (history ++ [event]) later := by
  obtain ⟨silent, unchecked, unwritten⟩ := foreign
  apply delivered.step
  · rw [silent, unchecked, todo, List.append_nil]
    rfl
  · rw [unchecked, unwritten, place]
    exact List.append_nil _

/-- The text of a request. -/
def Request.entry : Request → Option (Text × Level)
  | .write msg lvl => some (msg, lvl)
  | .flush => none

omit [DecidableEq Thread] in
/-- A text that is held stays held until its output begins. -/
theorem held_step {stage : Stage} {log after : LogSink Thread} {entered : Option Request}
    {next : Option Stage} (stepped : stage.step thread log = some (entered, next, after)) :
    stage.held = (entered.bind Request.entry).toList ++ next.elim [] Stage.held := by
  cases stage with
  | choosing request =>
      rw [Stage.step] at stepped
      split at stepped
      · cases stepped
        cases request <;> rfl
      · cases stepped
        cases request <;> rfl
  | waiting request =>
      rw [Stage.step] at stepped
      split at stepped
      · cases stepped
        cases request <;> rfl
      · contradiction
  | writing locked left flushes =>
      cases left with
      | cons char left =>
          cases stepped
          rfl
      | nil =>
          cases stepped
          cases flushes <;> cases locked <;> rfl
  | flushing locked =>
      cases stepped
      cases locked <;> rfl
  | unlocking =>
      cases stepped
      rfl

theorem held_none (free : writer.busy = none) : writer.held sink = [] := by
  rw [Writer.held, at_none free]
  rfl

theorem held_of_ne {place : Sink} {stage : Stage} (apart : place ≠ sink)
    (busy : writer.busy = some (place, stage)) : writer.held sink = [] := by
  rw [Writer.held, at_of_ne apart busy]
  rfl

theorem foreign_silent : SinkEvent.Foreign thread sink SinkEvent.silent := ⟨rfl, rfl, rfl⟩

theorem foreign_begun {other : Thread} {place : Sink} {entered : Option Request}
    (apart : ¬ (other = thread ∧ place = sink)) :
    (SinkEvent.begun other place entered).Foreign thread sink := by
  cases entered with
  | none => exact foreign_silent
  | some request =>
      refine ⟨rfl, rfl, ?_⟩
      cases request with
      | flush => rfl
      | write msg lvl => simp [writes, SinkEvent.begun, apart]

theorem writes_begun {entered : Option Request} :
    writes thread sink [SinkEvent.begun thread sink entered] = (entered.bind Request.entry).toList := by
  cases entered with
  | none => rfl
  | some request =>
      cases request with
      | flush => rfl
      | write msg lvl => simp [writes, SinkEvent.begun, Request.entry]

theorem asked_begun {other : Thread} {place : Sink} {entered : Option Request} :
    asked thread sink [SinkEvent.begun other place entered] = [] ∧
      checks thread sink [SinkEvent.begun other place entered] = [] := by
  cases entered with
  | none => exact ⟨rfl, rfl⟩
  | some request => exact ⟨rfl, rfl⟩

/-- A step of another thread leaves the balance of this one. -/
theorem Delivered.other {threads : Thread → Writer Sink} {other : Thread}
    (delivered : Delivered thread sink history (threads thread)) (apart : other ≠ thread)
    (foreign : event.Foreign thread sink) :
    Delivered thread sink (history ++ [event]) (Function.update threads other writer thread) := by
  rw [Function.update_of_ne apart.symm]
  exact delivered.foreign foreign rfl rfl

/-- A thread inside a sink keeps its balance. -/
theorem Delivered.goes {stage : Stage} {place : Sink} {log log' : LogSink Thread}
    {entered : Option Request} {next : Option Stage}
    (delivered : Delivered thread sink history writer) (busy : writer.busy = some (place, stage))
    (stepped : stage.step thread log = some (entered, next, log')) :
    Delivered thread sink (history ++ [SinkEvent.begun thread place entered])
      { writer with busy := next.map fun stage => (place, stage) } := by
  by_cases here : place = sink
  · subst here
    obtain ⟨silent, unchecked⟩ : asked thread place [SinkEvent.begun thread place entered] = [] ∧ _ :=
      asked_begun
    have held : writer.held place = stage.held := by
      rw [Writer.held, at_self busy]
      rfl
    have later : Writer.held place { writer with busy := next.map fun stage => (place, stage) } =
        next.elim [] Stage.held := by
      cases next with
      | none => rfl
      | some stage =>
          rw [Writer.held, at_self rfl]
    apply delivered.step
    · rw [silent, unchecked]
      exact List.append_nil _
    · rw [unchecked, writes_begun, held, later, held_step stepped]
      exact List.append_nil _
  · have still : Writer.held sink { writer with busy := next.map fun stage => (place, stage) } = [] := by
      cases next with
      | none => rfl
      | some stage => exact held_of_ne here rfl
    exact delivered.foreign (foreign_begun fun both => here both.2) rfl
      (still.trans (held_of_ne here busy).symm)

/-- The next text of the loop is checked. -/
theorem Delivered.check {place : Sink} {msg : Text} {lvl : Level} {rest : List (Sink × Text × Level)}
    {passes : Bool} (delivered : Delivered thread sink history writer) (free : writer.busy = none)
    (todo : writer.todo = (place, msg, lvl) :: rest) :
    Delivered thread sink (history ++ [.checked thread place msg lvl passes])
      { writer with
        todo := rest
        busy := if passes then some (place, .choosing (.write msg lvl)) else none } := by
  have nothing : writer.held sink = [] := held_none free
  by_cases here : place = sink
  · subst here
    have seen : checks thread place [SinkEvent.checked thread place msg lvl passes] =
        [((msg, lvl), passes)] := by
      simp [checks]
    apply delivered.step
    · rw [seen, Writer.pending, todo, List.filter_cons_of_pos (by simp)]
      exact List.append_nil _
    · rw [seen, nothing]
      cases passes with
      | true =>
          rw [if_pos rfl, Writer.held, at_self rfl]
          rfl
      | false => rfl
  · have foreign : (SinkEvent.checked thread place msg lvl passes).Foreign thread sink := by
      refine ⟨rfl, ?_, rfl⟩
      simp [checks, here]
    apply delivered.foreign foreign
    · rw [Writer.pending, Writer.pending, todo, List.filter_cons_of_neg (by simpa using here)]
    · rw [nothing, Writer.held]
      cases passes with
      | true =>
          rw [if_pos rfl, at_of_ne here rfl]
          rfl
      | false => rfl

/-- A call hands its texts over. -/
theorem Delivered.hand {texts : List (Sink × Text × Level)} {buffer : OutputStream.Stream}
    (delivered : Delivered thread sink history writer) (idle : writer.Idle) :
    Delivered thread sink (history ++ [.handed thread texts])
      { writer with buffer := buffer, todo := texts } := by
  have new : asked thread sink [SinkEvent.handed thread texts] =
      (texts.filter fun entry => entry.1 = sink).map Prod.snd := by
    simp [asked]
  apply delivered.step
  · rw [new, Writer.pending, idle.1]
    rfl
  · exact List.append_nil _

/-- Every step keeps the balance of every thread at every sink. -/
theorem delivered_step {action : SinkAction Sink Thread}
    (delivered : Delivered thread sink history (before.threads thread))
    (stepped : (sinkSystem Sink Thread).step before action = some (event, after)) :
    Delivered thread sink (history ++ [event]) (after.threads thread) := by
  cases action with
  | log other call =>
      simp only [sinkSystem, Option.ite_none_right_eq_some, Option.some.injEq, Prod.mk.injEq] at stepped
      obtain ⟨idle, rfl, rfl⟩ := stepped
      by_cases same : other = thread
      · subst same
        show Delivered _ _ _ (Function.update before.threads other _ other)
        rw [Function.update_self]
        exact delivered.hand idle
      · apply delivered.other same
        exact ⟨by simp [asked, same], rfl, rfl⟩
  | flush other place =>
      simp only [sinkSystem, Option.ite_none_right_eq_some, Option.some.injEq, Prod.mk.injEq] at stepped
      obtain ⟨idle, rfl, rfl⟩ := stepped
      by_cases same : other = thread
      · subst same
        show Delivered _ _ _ (Function.update before.threads other _ other)
        rw [Function.update_self]
        refine delivered.foreign foreign_silent rfl (Eq.trans ?_ (held_none idle.2).symm)
        by_cases here : place = sink
        · subst here
          rw [Writer.held, at_self rfl]
          rfl
        · exact held_of_ne here rfl
      · exact delivered.other same foreign_silent
  | tick other =>
      simp only [sinkSystem, tick] at stepped
      split at stepped
      · rename_i _ todo place stage busy
        rw [Option.map_eq_some_iff] at stepped
        obtain ⟨⟨entered, next, changed⟩, stepped, ended⟩ := stepped
        cases ended
        by_cases same : other = thread
        · subst same
          show Delivered _ _ _ (Function.update before.threads other _ other)
          rw [Function.update_self]
          exact delivered.goes busy stepped
        · exact delivered.other same (foreign_begun fun both => same both.1)
      · rename_i place msg lvl rest free todo
        cases stepped
        by_cases same : other = thread
        · subst same
          show Delivered _ _ _ (Function.update before.threads other _ other)
          rw [Function.update_self]
          exact delivered.check free todo
        · apply delivered.other same
          exact ⟨rfl, by simp [checks, same], rfl⟩
      · contradiction
  | setMaxlvl place lvl =>
      cases stepped
      exact delivered.foreign foreign_silent rfl rfl
  | enableThreadSafeMode place enable =>
      cases stepped
      exact delivered.foreign foreign_silent rfl rfl

end Steps

section Ends

/-- The steps that a place in a sink has at most before it. -/
def Stage.cost : Stage → Nat
  | .choosing request => request.text.length + 5
  | .waiting request => request.text.length + 4
  | .writing _ left _ => left.length + 3
  | .flushing _ => 2
  | .unlocking => 1

/-- The steps that a thread has at most before it. -/
def Writer.cost (writer : Writer Sink) : Nat :=
  writer.todo.foldr (fun entry cost => entry.2.1.length + 6 + cost) 0 +
    (writer.busy.elim 0 fun inside => inside.2.cost)

variable {thread : Thread} {sink : Sink} {history : List (SinkEvent Sink Thread)}
  {before after state : Sinks Sink Thread} {event : SinkEvent Sink Thread}

omit [DecidableEq Sink] [DecidableEq Thread] in
theorem cost_step {stage : Stage} {log changed : LogSink Thread} {entered : Option Request}
    {next : Option Stage} (stepped : stage.step thread log = some (entered, next, changed)) :
    next.elim 0 Stage.cost < stage.cost := by
  cases stage with
  | choosing request =>
      rw [Stage.step] at stepped
      split at stepped
      · cases stepped
        exact Nat.lt_succ_self _
      · cases stepped
        exact Nat.lt_of_lt_of_le (Nat.lt_succ_self _) (Nat.le_succ _)
  | waiting request =>
      rw [Stage.step] at stepped
      split at stepped
      · cases stepped
        exact Nat.lt_succ_self _
      · contradiction
  | writing locked left flushes =>
      cases left with
      | cons char left =>
          cases stepped
          exact Nat.lt_succ_self _
      | nil =>
          cases stepped
          cases flushes <;> cases locked <;> decide
  | flushing locked =>
      cases stepped
      cases locked <;> decide
  | unlocking =>
      cases stepped
      decide

/-- Each step of a thread is one of those that it has before it. -/
theorem cost_tick (stepped : tick before thread = some (event, after)) :
    (after.threads thread).cost < (before.threads thread).cost ∧
      ∀ other, other ≠ thread → after.threads other = before.threads other := by
  simp only [tick] at stepped
  split at stepped
  · rename_i _ todo place stage busy
    rw [Option.map_eq_some_iff] at stepped
    obtain ⟨⟨entered, next, changed⟩, stepped, ended⟩ := stepped
    cases ended
    refine ⟨?_, fun other apart => Function.update_of_ne apart _ _⟩
    have less := cost_step stepped
    show (Function.update before.threads thread _ thread).cost < _
    rw [Function.update_self, Writer.cost, Writer.cost, busy]
    cases next with
    | none => exact Nat.add_lt_add_left less _
    | some stage => exact Nat.add_lt_add_left less _
  · rename_i place msg lvl rest free todo
    cases stepped
    refine ⟨?_, fun other apart => Function.update_of_ne apart _ _⟩
    show (Function.update before.threads thread _ thread).cost < _
    rw [Function.update_self, Writer.cost, Writer.cost, free, todo, List.foldr_cons]
    split
    · show rest.foldr _ 0 + (msg.length + 5) < msg.length + 6 + rest.foldr _ 0 + 0
      omega
    · show rest.foldr _ 0 + 0 < msg.length + 6 + rest.foldr _ 0 + 0
      omega
  · contradiction

/-- A thread that is inside the output functions, or in front of a check, is never held up. -/
theorem tick_of_inside {stage : Stage} (busy : (before.threads thread).busy = some (sink, stage))
    (inside : stage.inside = true) : tick before thread ≠ none := by
  have goes : stage.step thread (before.sinks sink) ≠ none := by
    cases stage with
    | choosing request => contradiction
    | waiting request => contradiction
    | writing locked left flushes => cases left <;> exact Option.some_ne_none _
    | flushing locked => exact Option.some_ne_none _
    | unlocking => exact Option.some_ne_none _
  simp only [tick, busy]
  exact fun stuck => goes (Option.map_eq_none_iff.mp stuck)

/-- A thread that is held up waits for a mutex, whose holder is not held up. -/
theorem exists_tick {levels : Sink → Level}
    (run : (safeSinks Sink Thread).Run (initially levels) history state) (thread : Thread)
    (unfinished : ¬ (state.threads thread).Idle) :
    tick state thread ≠ none ∨ ∃ owner, owner ≠ thread ∧ tick state owner ≠ none := by
  by_cases stuck : tick state thread = none
  · right
    simp only [tick] at stuck
    split at stuck
    · rename_i _ todo place stage busy
      have coherent := run_coherent run place
      rw [Option.map_eq_none_iff] at stuck
      cases stage with
      | waiting request =>
          rw [Stage.step] at stuck
          cases held : (state.sinks place).mux with
          | none => simp [held] at stuck
          | some owner =>
              obtain ⟨stage, there, inside⟩ := (coherent.holder owner).mp held
              rw [Sinks.stages, Function.comp_apply, Writer.at, Option.bind_eq_some_iff] at there
              obtain ⟨⟨other, found⟩, owned, same⟩ := there
              rw [Option.ite_none_right_eq_some] at same
              obtain rfl : found = stage := Option.some.inj same.2
              refine ⟨owner, ?_, tick_of_inside owned inside⟩
              rintro rfl
              rw [busy] at owned
              cases owned
              contradiction
      | choosing request =>
          rw [Stage.step] at stuck
          split at stuck <;> contradiction
      | writing locked left flushes => cases left <;> contradiction
      | flushing locked => contradiction
      | unlocking => contradiction
    · contradiction
    · rename_i free todo
      exact absurd ⟨todo, free⟩ unfinished
  · exact .inl stuck

/-- The calls of all threads end: threads that only go on take no more steps than they have before them,
and where none of them can go on each of them is done. -/
theorem log_ends {levels : Sink → Level}
    (run : (safeSinks Sink Thread).Run (initially levels) history state) {threads : List Thread}
    {events : List (SinkEvent Sink Thread)} {final : Sinks Sink Thread}
    (executed : (safeSinks Sink Thread).execute state (threads.map .tick) = some (events, final)) :
    (∀ thread, threads.count thread + (final.threads thread).cost ≤ (state.threads thread).cost) ∧
      ((∀ thread, tick final thread = none) → ∀ thread, (final.threads thread).Idle) := by
  constructor
  · clear run
    induction threads generalizing state events with
    | nil =>
        obtain ⟨-, rfl⟩ := StepSystem.execute_nil.mp executed
        intro thread
        rw [List.count_nil, Nat.zero_add]
    | cons first rest ih =>
        obtain ⟨event, middle, later, stepped, continued, -⟩ := StepSystem.execute_cons_iff.mp executed
        obtain ⟨-, stepped⟩ := StepSystem.restrict_step.mp stepped
        obtain ⟨less, others⟩ := cost_tick stepped
        intro thread
        have bound := ih continued thread
        by_cases same : first = thread
        · subst same
          rw [List.count_cons_self]
          omega
        · rw [others thread (Ne.symm same)] at bound
          rwa [List.count_cons_of_ne same]
  · intro still thread
    have reached := run.execute (threads.map .tick) executed
    by_contra unfinished
    rcases exists_tick reached thread unfinished with goes | ⟨owner, -, goes⟩
    · exact goes (still thread)
    · exact goes (still owner)

/-- A thread waits for the mutex that another one holds. -/
theorem log_ends_waiting :
    ∃ history state, (safeSinks Nat Nat).Run (initially fun _ => .trace) history state ∧
      ∃ events final, (safeSinks Nat Nat).execute state ([0, 0, 0].map .tick) = some (events, final) ∧
        tick final 1 = none ∧ ([0, 0, 0].count 0) + (final.threads 0).cost ≤ (state.threads 0).cost := by
  have executed : (((safeSinks Nat Nat).execute (initially fun _ => .trace) sinkActions).bind
      fun ran => ((safeSinks Nat Nat).execute ran.2 ([0, 0, 0].map .tick)).map fun more =>
        (tick more.2 1).isNone) = some true := by
    decide +kernel
  simp only [Option.bind_eq_some_iff, Option.map_eq_some_iff] at executed
  obtain ⟨⟨history, state⟩, ran, ⟨events, final⟩, goes, stuck⟩ := executed
  have run := StepSystem.run_of_execute sinkActions ran
  exact ⟨history, state, run, events, final, goes, Option.isNone_iff_eq_none.mp stuck,
    (log_ends run goes).1 0⟩

/-- The level that a check looks at is the one that the sink has then. -/
theorem checked_step {action : SinkAction Sink Thread} {msg : Text} {lvl : Level} {passes : Bool}
    (stepped : (sinkSystem Sink Thread).step before action =
      some (.checked thread sink msg lvl passes, after)) :
    passes = (before.sinks sink).passes lvl := by
  cases action with
  | log other call => simp [sinkSystem] at stepped
  | flush other place => simp [sinkSystem] at stepped
  | setMaxlvl place level => simp [sinkSystem] at stepped
  | enableThreadSafeMode place enable => simp [sinkSystem] at stepped
  | tick other =>
      simp only [sinkSystem, tick] at stepped
      split at stepped
      · rw [Option.map_eq_some_iff] at stepped
        obtain ⟨⟨entered, next, changed⟩, -, ended⟩ := stepped
        cases entered with
        | none => cases (Prod.mk.inj ended).1
        | some request => cases (Prod.mk.inj ended).1
      · cases stepped
        rfl
      · contradiction

/-- Nothing is lost, doubled or reordered on the way to the sinks: in every run each text that a thread
hands over is checked once by its sink, in the order of the calls, against the level that the sink has
then, and the output of exactly the texts that pass is begun, once each and in the same order. Where the
thread is done nothing of this is left to come. -/
theorem log_delivered {levels : Sink → Level}
    (run : (sinkSystem Sink Thread).Run (initially levels) history state) (thread : Thread)
    (sink : Sink) :
    asked thread sink history =
        (checks thread sink history).map Prod.fst ++ (state.threads thread).pending sink ∧
      passed (checks thread sink history) =
        writes thread sink history ++ (state.threads thread).held sink ∧
      ((state.threads thread).Idle →
        asked thread sink history = (checks thread sink history).map Prod.fst ∧
        passed (checks thread sink history) = writes thread sink history) ∧
      ∀ earlier later msg lvl passes,
        history = earlier ++ .checked thread sink msg lvl passes :: later →
        ∃ before, (sinkSystem Sink Thread).Run (initially levels) earlier before ∧
          passes = (before.sinks sink).passes lvl := by
  have delivered : Delivered thread sink history (state.threads thread) := by
    apply run.invariant fun history (state : Sinks Sink Thread) =>
      Delivered thread sink history (state.threads thread)
    · exact ⟨rfl, rfl⟩
    · intro history before action event after delivered stepped
      exact delivered_step delivered stepped
  refine ⟨delivered.checked, delivered.begun, ?_, ?_⟩
  · rintro ⟨done, free⟩
    have checked := delivered.checked
    have begun := delivered.begun
    rw [Writer.pending, done] at checked
    rw [held_none free, List.append_nil] at begun
    exact ⟨checked.trans (List.append_nil _), begun⟩
  · intro earlier later msg lvl passes parts
    obtain ⟨before, action, after, reached, stepped⟩ := run.split parts
    exact ⟨before, reached, checked_step stepped⟩

/-- A debug message and a status message for a sink of status messages. -/
def deliveryActions : List (SinkAction Nat Nat) :=
  [.log 0 debugCall, .tick 0, .log 0 { debugCall with lvl := .status }] ++ List.replicate 37 (.tick 0)

theorem log_delivered_filtered :
    ∃ history state, (sinkSystem Nat Nat).Run (initially fun _ => .status) history state ∧
      (checks 0 0 history).map Prod.snd = [false, true] ∧
      asked 0 0 history = (checks 0 0 history).map Prod.fst ∧
      passed (checks 0 0 history) = writes 0 0 history := by
  have executed : ((sinkSystem Nat Nat).execute (initially fun _ => .status) deliveryActions).map
      (fun answer => ((checks 0 0 answer.1).map Prod.snd, decide (answer.2.threads 0).Idle)) =
      some ([false, true], true) := by
    decide +kernel
  obtain ⟨⟨history, state⟩, ran, final⟩ := Option.map_eq_some_iff.mp executed
  obtain ⟨outcomes, idle⟩ := Prod.mk.inj final
  have run := StepSystem.run_of_execute deliveryActions ran
  obtain ⟨-, -, done, -⟩ := log_delivered run 0 0
  exact ⟨history, state, run, outcomes, done (of_decide_eq_true idle)⟩

end Ends

end MartCommon.Log
