import MartCommon.Log.Sink

namespace MartCommon.Log

open Library

variable {Sink Thread : Type}

/-- Where a thread is inside one of the sinks. -/
def Writer.at [DecidableEq Sink] (sink : Sink) (writer : Writer Sink) : Option Stage :=
  writer.busy.bind fun inside => if inside.1 = sink then some inside.2 else none

/-- Where the threads are inside one of the sinks. -/
def Sinks.stages [DecidableEq Sink] (state : Sinks Sink Thread) (sink : Sink) : Thread → Option Stage :=
  Writer.at sink ∘ state.threads

namespace LogSink

variable (sink : LogSink Thread) (stages : Thread → Option Stage)

/-- Where the thread is that holds the mutex. -/
def current : Option Stage := sink.mux.bind stages

/-- What the thread with the mutex has yet to write. -/
def unwritten : Text := (sink.current stages).elim [] Stage.left

/-- The thread with the mutex has yet to flush. -/
def owing : Bool := (sink.current stages).any Stage.owes

end LogSink

/-- The texts of requests one after the other. -/
def joined (requests : List Request) : Text := (requests.map Request.text).flatten

/-- The text of the request that came last. -/
def lastText (requests : List Request) : Text := requests.getLast?.elim [] Request.text

/-- The written characters are those of all requests but the end of the last one. -/
def Whole (written unwritten : Text) (begun : List Request) : Prop :=
  joined begun = written ++ unwritten ∧ unwritten <:+ lastText begun

/-- The flushed characters are those of some requests. Behind these come requests that flush nothing,
and the one that is going to flush, if there is one. -/
def Durable (flushed : Text) (begun : List Request) (owing : Bool) : Prop :=
  ∃ front tail owed, begun = front ++ tail ++ owed ∧ flushed = joined front ∧
    (∀ request ∈ tail, request.flushes = false) ∧ owed.length = if owing then 1 else 0

/-- A sink in its safe mode has its output called under the lock only, by the thread that holds the
mutex. It has written all of the requests that it began but what that thread has yet to write of the
last one. -/
structure Coherent (sink : LogSink Thread) (stages : Thread → Option Stage) (begun : List Request) :
    Prop where
  safe : sink.threadSafe = true
  guarded : ∀ thread stage, stages thread = some stage → stage.guarded = true
  holder : ∀ thread, sink.mux = some thread ↔
    ∃ stage, stages thread = some stage ∧ stage.inside = true
  written : Whole sink.written (sink.unwritten stages) begun
  durable : Durable sink.flushed begun (sink.owing stages)

/-- What a step does to one of the sinks: nothing, a change of its level, the way in of a thread, or a
step of a thread inside it. -/
inductive Local [DecidableEq Thread] (sink : LogSink Thread) (stages : Thread → Option Stage) :
    LogSink Thread → (Thread → Option Stage) → List Request → Prop where
  | nothing : Local sink stages sink stages []
  | level (lvl : Level) : Local sink stages { sink with maxlvl := lvl } stages []
  | safeMode : Local sink stages { sink with threadSafe := true } stages []
  | arrive {thread : Thread} {request : Request} (free : stages thread = none) :
      Local sink stages sink (Function.update stages thread (some (.choosing request))) []
  | goes {thread : Thread} {stage : Stage} {begun : Option Request} {next : Option Stage}
      {after : LogSink Thread} (here : stages thread = some stage)
      (stepped : stage.step thread sink = some (begun, next, after)) :
      Local sink stages after (Function.update stages thread next) begun.toList

section Local

variable [DecidableEq Thread] {sink after : LogSink Thread} {stages later : Thread → Option Stage}
  {begun more : List Request} {thread : Thread} {stage : Stage} {next : Option Stage}

/-- Only the thread with the mutex matters. -/
theorem current_update_of_ne (apart : sink.mux ≠ some thread) :
    sink.current (Function.update stages thread next) = sink.current stages := by
  rw [LogSink.current, LogSink.current]
  cases held : sink.mux with
  | none => rfl
  | some owner =>
      have different : owner ≠ thread := fun same => apart (held.trans (congrArg some same))
      rw [Option.bind_some, Option.bind_some, Function.update_of_ne different]

theorem current_update_self (held : sink.mux = some thread) :
    sink.current (Function.update stages thread next) = next := by
  rw [LogSink.current, held, Option.bind_some, Function.update_self]

theorem joined_append (first second : List Request) :
    joined (first ++ second) = joined first ++ joined second := by
  rw [joined, List.map_append, List.flatten_append]
  rfl

/-- A request that begins has its whole text to write. -/
theorem whole_begin {written : Text} (all : joined begun = written) (request : Request) :
    Whole written request.text (begun ++ [request]) := by
  constructor
  · rw [joined_append, all]
    exact congrArg (written ++ ·) (List.append_nil request.text)
  · rw [lastText, List.getLast?_concat]
    exact List.suffix_rfl

/-- One more character is written. -/
theorem Whole.put {written left : Text} {char : UInt8} (whole : Whole written (char :: left) begun) :
    Whole (written ++ [char]) left begun := by
  obtain ⟨all, ending⟩ := whole
  constructor
  · rw [all, List.append_assoc]
    rfl
  · exact (List.suffix_cons char left).trans ending

/-- Nothing is left to write. -/
theorem Whole.done {written : Text} (whole : Whole written [] begun) : joined begun = written :=
  whole.1.trans (List.append_nil _)

/-- A request that begins owes a flush, or it has none. -/
theorem Durable.begin {flushed : Text} (durable : Durable flushed begun false) (request : Request) :
    Durable flushed (begun ++ [request]) request.flushes := by
  obtain ⟨front, tail, owed, rfl, same, quiet, none⟩ := durable
  obtain rfl : owed = [] := List.length_eq_zero_iff.mp none
  rw [List.append_nil]
  cases flushes : request.flushes with
  | true => exact ⟨front, tail, [request], rfl, same, quiet, rfl⟩
  | false =>
      refine ⟨front, tail ++ [request], [], by simp, same, ?_, rfl⟩
      intro other member
      rcases List.mem_append.mp member with earlier | last
      · exact quiet other earlier
      · rw [List.mem_singleton.mp last]
        exact flushes

/-- Behind a flush nothing is left. -/
theorem durable_all (begun : List Request) : Durable (joined begun) begun false :=
  ⟨begun, [], [], by simp, rfl, by simp, rfl⟩

/-- A thread outside of the output functions goes to another place outside of them. -/
theorem Coherent.outside (coherent : Coherent sink stages begun)
    (before : ∀ stage, stages thread = some stage → stage.inside = false)
    (now : ∀ stage, next = some stage → stage.inside = false ∧ stage.guarded = true) :
    Coherent sink (Function.update stages thread next) begun := by
  have apart : sink.mux ≠ some thread := by
    intro held
    obtain ⟨stage, here, inside⟩ := (coherent.holder thread).mp held
    rw [before stage here] at inside
    contradiction
  refine ⟨coherent.safe, ?_, ?_, ?_, ?_⟩
  · intro other stage here
    by_cases same : other = thread
    · subst same
      rw [Function.update_self] at here
      exact (now stage here).2
    · rw [Function.update_of_ne same] at here
      exact coherent.guarded other stage here
  · intro other
    by_cases same : other = thread
    · subst same
      refine iff_of_false apart ?_
      rintro ⟨stage, here, inside⟩
      rw [Function.update_self] at here
      rw [(now stage here).1] at inside
      contradiction
    · rw [Function.update_of_ne same]
      exact coherent.holder other
  · rw [LogSink.unwritten, current_update_of_ne apart]
    exact coherent.written
  · rw [LogSink.owing, current_update_of_ne apart]
    exact coherent.durable

/-- The thread that holds the mutex goes to another place under the lock. -/
theorem Coherent.holds (coherent : Coherent sink stages begun) (held : sink.mux = some thread)
    {written flushed : Text} {stage : Stage} (inside : stage.inside = true)
    (guarded : stage.guarded = true) (all : Whole written stage.left begun)
    (durable : Durable flushed begun stage.owes) :
    Coherent { sink with written := written, flushed := flushed }
      (Function.update stages thread (some stage)) begun := by
  have now : LogSink.current { sink with written := written, flushed := flushed }
      (Function.update stages thread (some stage)) = some stage := current_update_self held
  refine ⟨coherent.safe, ?_, ?_, ?_, ?_⟩
  · intro other place here
    by_cases same : other = thread
    · subst same
      rw [Function.update_self] at here
      obtain rfl := Option.some.inj here
      exact guarded
    · rw [Function.update_of_ne same] at here
      exact coherent.guarded other place here
  · intro other
    by_cases same : other = thread
    · subst same
      rw [Function.update_self]
      exact iff_of_true held ⟨stage, rfl, inside⟩
    · rw [Function.update_of_ne same]
      exact coherent.holder other
  · rw [LogSink.unwritten, now]
    exact all
  · rw [LogSink.owing, now]
    exact durable

omit [DecidableEq Thread] in
/-- The stage of the thread with the mutex says what it has yet to do. -/
theorem Coherent.here (coherent : Coherent sink stages begun) (here : stages thread = some stage)
    (inside : stage.inside = true) :
    sink.mux = some thread ∧ Whole sink.written stage.left begun ∧
      Durable sink.flushed begun stage.owes := by
  have held := (coherent.holder thread).mpr ⟨stage, here, inside⟩
  have now : sink.current stages = some stage := by
    rw [LogSink.current, held]
    exact here
  have written := coherent.written
  have durable := coherent.durable
  rw [LogSink.unwritten, now] at written
  rw [LogSink.owing, now] at durable
  exact ⟨held, written, durable⟩

omit [DecidableEq Thread] in
/-- While nobody holds the mutex nothing is left to do. -/
theorem Coherent.free (coherent : Coherent sink stages begun) (free : sink.mux = none) :
    joined begun = sink.written ∧ Durable sink.flushed begun false := by
  have now : sink.current stages = none := by
    rw [LogSink.current, free]
    rfl
  have written := coherent.written
  have durable := coherent.durable
  rw [LogSink.unwritten, now] at written
  rw [LogSink.owing, now] at durable
  exact ⟨written.done, durable⟩

/-- The thread that gets the mutex begins its output. -/
theorem Coherent.enter (coherent : Coherent sink stages begun) (free : sink.mux = none)
    (request : Request) :
    Coherent { sink with mux := some thread }
      (Function.update stages thread (some (.writing true request.text request.flushes)))
      (begun ++ [request]) := by
  obtain ⟨written, durable⟩ := coherent.free free
  have now : LogSink.current { sink with mux := some thread } (Function.update stages thread
      (some (.writing true request.text request.flushes))) = _ := current_update_self rfl
  refine ⟨coherent.safe, ?_, ?_, ?_, ?_⟩
  · intro other place here
    by_cases same : other = thread
    · subst same
      rw [Function.update_self] at here
      obtain rfl := Option.some.inj here
      rfl
    · rw [Function.update_of_ne same] at here
      exact coherent.guarded other place here
  · intro other
    by_cases same : other = thread
    · subst same
      rw [Function.update_self]
      exact iff_of_true rfl ⟨_, rfl, rfl⟩
    · rw [Function.update_of_ne same, ← coherent.holder other, free]
      exact iff_of_false (fun held => same (Option.some.inj held).symm) nofun
  · rw [LogSink.unwritten, now]
    exact whole_begin written request
  · rw [LogSink.owing, now]
    exact durable.begin request

/-- The thread with the mutex gives it back where it has nothing left to do. -/
theorem Coherent.exit (coherent : Coherent sink stages begun)
    (here : stages thread = some .unlocking) :
    Coherent { sink with mux := none } (Function.update stages thread none) begun := by
  obtain ⟨held, written, durable⟩ := coherent.here here rfl
  refine ⟨coherent.safe, ?_, ?_, written, durable⟩
  · intro other place there
    by_cases same : other = thread
    · subst same
      rw [Function.update_self] at there
      contradiction
    · rw [Function.update_of_ne same] at there
      exact coherent.guarded other place there
  · intro other
    by_cases same : other = thread
    · subst same
      rw [Function.update_self]
      exact iff_of_false nofun nofun
    · rw [Function.update_of_ne same, ← coherent.holder other, held]
      exact iff_of_false nofun fun also => same (Option.some.inj also).symm

/-- No step of a thread inside the sink spoils it. -/
theorem Coherent.step {entered : Option Request} (coherent : Coherent sink stages begun)
    (here : stages thread = some stage)
    (stepped : stage.step thread sink = some (entered, next, after)) :
    Coherent after (Function.update stages thread next) (begun ++ entered.toList) := by
  have guarded := coherent.guarded thread stage here
  cases stage with
  | choosing request =>
      rw [Stage.step, if_pos coherent.safe] at stepped
      cases stepped
      rw [Option.toList_none, List.append_nil]
      apply coherent.outside
      · intro stage same
        rw [here] at same
        cases same
        rfl
      · intro stage same
        cases same
        exact ⟨rfl, rfl⟩
  | waiting request =>
      rw [Stage.step] at stepped
      cases free : sink.mux with
      | some owner => simp [free] at stepped
      | none =>
          rw [free] at stepped
          cases stepped
          exact coherent.enter free request
  | writing locked left flushes =>
      obtain rfl : locked = true := guarded
      obtain ⟨held, written, durable⟩ := coherent.here here rfl
      cases left with
      | cons char left =>
          cases stepped
          rw [Option.toList_none, List.append_nil]
          exact coherent.holds held rfl rfl written.put durable
      | nil =>
          cases flushes with
          | true =>
              cases stepped
              rw [Option.toList_none, List.append_nil]
              exact coherent.holds held rfl rfl written durable
          | false =>
              cases stepped
              rw [Option.toList_none, List.append_nil]
              exact coherent.holds held rfl rfl written durable
  | flushing locked =>
      obtain rfl : locked = true := guarded
      obtain ⟨held, written, -⟩ := coherent.here here rfl
      cases stepped
      rw [Option.toList_none, List.append_nil]
      have all : joined begun = sink.written := written.done
      exact coherent.holds held rfl rfl written (all ▸ durable_all begun)
  | unlocking =>
      cases stepped
      rw [Option.toList_none, List.append_nil]
      exact coherent.exit here

/-- What happens at a sink keeps it coherent. -/
theorem Coherent.kept (coherent : Coherent sink stages begun)
    (happens : Local sink stages after later more) : Coherent after later (begun ++ more) := by
  cases happens with
  | nothing =>
      rw [List.append_nil]
      exact coherent
  | level lvl =>
      rw [List.append_nil]
      exact ⟨coherent.safe, coherent.guarded, coherent.holder, coherent.written, coherent.durable⟩
  | safeMode =>
      rw [List.append_nil]
      exact ⟨rfl, coherent.guarded, coherent.holder, coherent.written, coherent.durable⟩
  | arrive free =>
      rw [List.append_nil]
      apply coherent.outside
      · intro stage same
        rw [free] at same
        contradiction
      · intro stage same
        cases same
        exact ⟨rfl, rfl⟩
  | goes here stepped => exact coherent.step here stepped

end Local

section Runs

variable [DecidableEq Sink] [DecidableEq Thread] {before after : Sinks Sink Thread}
  {event : SinkEvent Sink Thread} {history : List (SinkEvent Sink Thread)} {sink : Sink}

/-- The safe mode is on from the construction of a sink, and nobody switches it off. -/
def SinkAction.keepsSafe : SinkAction Sink Thread → Bool
  | .enableThreadSafeMode _ enable => enable
  | _ => true

/-- The threads and sinks where the safe mode stays on. -/
abbrev safeSinks (Sink Thread : Type) [DecidableEq Sink] [DecidableEq Thread] :
    StepSystem (Sinks Sink Thread) (SinkAction Sink Thread) (SinkEvent Sink Thread) :=
  (sinkSystem Sink Thread).restrict fun _ action => action.keepsSafe = true

omit [DecidableEq Thread] in
/-- A thread inside a sink is at its place there, and at no place of another sink. -/
theorem at_self {writer : Writer Sink} {stage : Stage} (busy : writer.busy = some (sink, stage)) :
    writer.at sink = some stage := by
  rw [Writer.at, busy, Option.bind_some, if_pos rfl]

theorem at_of_ne {writer : Writer Sink} {other : Sink} {stage : Stage} (apart : other ≠ sink)
    (busy : writer.busy = some (other, stage)) : writer.at sink = none := by
  rw [Writer.at, busy, Option.bind_some, if_neg apart]

theorem at_none {writer : Writer Sink} (free : writer.busy = none) : writer.at sink = none := by
  rw [Writer.at, free, Option.bind_none]

/-- The places of the threads where one of them is replaced. -/
theorem stages_update {sinks : Sink → LogSink Thread} {threads : Thread → Writer Sink} {thread : Thread}
    {writer : Writer Sink} :
    Sinks.stages { sinks := sinks, threads := Function.update threads thread writer } sink =
      Function.update (Writer.at sink ∘ threads) thread (writer.at sink) :=
  Function.comp_update _ _ _ _

/-- A thread that is at the same place of a sink. -/
theorem stages_same {sinks : Sink → LogSink Thread} {thread : Thread} {writer : Writer Sink}
    (same : writer.at sink = (before.threads thread).at sink) :
    Sinks.stages { sinks := sinks, threads := Function.update before.threads thread writer } sink =
      before.stages sink := by
  rw [stages_update, same]
  exact Function.update_eq_self _ _

theorem local_same {thread : Thread} {writer : Writer Sink}
    (same : writer.busy = (before.threads thread).busy) :
    Local (before.sinks sink) (before.stages sink) (before.sinks sink)
      (Sinks.stages { before with threads := Function.update before.threads thread writer } sink) [] := by
  have place : writer.at sink = (before.threads thread).at sink := by
    rw [Writer.at, Writer.at, same]
  rw [stages_same place]
  exact .nothing

/-- A thread comes to a sink from outside. -/
theorem local_arrive {thread : Thread} {other : Sink} {request : Request} {writer : Writer Sink}
    (free : (before.threads thread).busy = none)
    (busy : writer.busy = some (other, .choosing request)) :
    Local (before.sinks sink) (before.stages sink) (before.sinks sink)
      (Sinks.stages { before with threads := Function.update before.threads thread writer } sink) [] := by
  by_cases here : other = sink
  · subst here
    rw [stages_update, at_self busy]
    exact .arrive (at_none free)
  · rw [stages_same ((at_of_ne here busy).trans (at_none free).symm)]
    exact .nothing

omit [DecidableEq Thread] in
theorem requests_begun {thread : Thread} {begun : Option Request} :
    requests sink [SinkEvent.begun thread sink begun] = begun.toList := by
  cases begun with
  | none => rfl
  | some request => simp [requests, SinkEvent.begun]

omit [DecidableEq Thread] in
theorem requests_begun_of_ne {thread : Thread} {other : Sink} {begun : Option Request}
    (apart : other ≠ sink) : requests sink [SinkEvent.begun thread other begun] = [] := by
  cases begun with
  | none => rfl
  | some request => simp [requests, SinkEvent.begun, apart]

/-- A thread inside a sink goes on there. -/
theorem local_tick {thread : Thread} (stepped : tick before thread = some (event, after)) :
    Local (before.sinks sink) (before.stages sink) (after.sinks sink) (after.stages sink)
      (requests sink [event]) := by
  simp only [tick] at stepped
  split at stepped
  · rename_i _ todo other stage busy
    rw [Option.map_eq_some_iff] at stepped
    obtain ⟨⟨begun, next, changed⟩, stepped, same⟩ := stepped
    cases same
    by_cases here : other = sink
    · subst here
      have place : (before.stages other) thread = some stage := at_self busy
      have went := Local.goes place stepped
      have next_at : Writer.at other { before.threads thread with
          busy := next.map fun stage => (other, stage) } = next := by
        cases next with
        | none => rfl
        | some stage => exact at_self rfl
      rw [stages_update, next_at, requests_begun]
      show Local _ _ (Function.update before.sinks other changed other) _ _
      rw [Function.update_self]
      exact went
    · have elsewhere : (before.threads thread).at sink = none := at_of_ne here busy
      have still : Writer.at sink { before.threads thread with
          busy := next.map fun stage => (other, stage) } = none := by
        cases next with
        | none => rfl
        | some stage => exact at_of_ne here rfl
      rw [stages_same (still.trans elsewhere.symm), requests_begun_of_ne here]
      show Local _ _ (Function.update before.sinks other changed sink) _ _
      rw [Function.update_of_ne (Ne.symm here)]
      exact .nothing
  · rename_i other msg lvl rest free todo
    cases stepped
    by_cases passed : (before.sinks other).passes lvl = true
    · rw [if_pos passed]
      exact local_arrive free rfl
    · rw [if_neg passed]
      exact local_same free.symm
  · contradiction

/-- Each step is a step at each of the sinks. -/
theorem local_step {action : SinkAction Sink Thread} (keeps : action.keepsSafe = true)
    (stepped : (sinkSystem Sink Thread).step before action = some (event, after)) :
    Local (before.sinks sink) (before.stages sink) (after.sinks sink) (after.stages sink)
      (requests sink [event]) := by
  cases action with
  | log thread call =>
      simp only [sinkSystem, Option.ite_none_right_eq_some, Option.some.injEq, Prod.mk.injEq] at stepped
      obtain ⟨idle, rfl, rfl⟩ := stepped
      exact local_same rfl
  | flush thread other =>
      simp only [sinkSystem, Option.ite_none_right_eq_some, Option.some.injEq, Prod.mk.injEq] at stepped
      obtain ⟨idle, rfl, rfl⟩ := stepped
      exact local_arrive idle.2 rfl
  | tick thread => exact local_tick stepped
  | setMaxlvl other lvl =>
      cases stepped
      by_cases here : other = sink
      · subst here
        show Local _ _ (Function.update before.sinks other _ other) _ _
        rw [Function.update_self]
        exact .level lvl
      · show Local _ _ (Function.update before.sinks other _ sink) _ _
        rw [Function.update_of_ne (Ne.symm here)]
        exact .nothing
  | enableThreadSafeMode other enable =>
      obtain rfl : enable = true := keeps
      cases stepped
      by_cases here : other = sink
      · subst here
        show Local _ _ (Function.update before.sinks other _ other) _ _
        rw [Function.update_self]
        exact .safeMode
      · show Local _ _ (Function.update before.sinks other _ sink) _ _
        rw [Function.update_of_ne (Ne.symm here)]
        exact .nothing

/-- New sinks with a level each, and threads that have not logged yet. -/
def initially (levels : Sink → Level) : Sinks Sink Thread where
  sinks sink := { maxlvl := levels sink }

omit [DecidableEq Thread] in
theorem coherent_initially (levels : Sink → Level) (sink : Sink) :
    Coherent ((initially levels : Sinks Sink Thread).sinks sink)
      ((initially levels : Sinks Sink Thread).stages sink) [] := by
  refine ⟨rfl, nofun, ?_, ?_, ?_⟩
  · intro thread
    exact iff_of_false nofun nofun
  · exact ⟨rfl, List.suffix_rfl⟩
  · exact durable_all []

omit [DecidableEq Thread] in
/-- The requests of a longer history are those of its parts. -/
theorem requests_append (first second : List (SinkEvent Sink Thread)) :
    requests sink (first ++ second) = requests sink first ++ requests sink second :=
  List.filterMap_append

theorem run_coherent {levels : Sink → Level} {state : Sinks Sink Thread}
    (run : (safeSinks Sink Thread).Run (initially levels) history state) (sink : Sink) :
    Coherent (state.sinks sink) (state.stages sink) (requests sink history) := by
  apply run.invariant fun history (state : Sinks Sink Thread) =>
    Coherent (state.sinks sink) (state.stages sink) (requests sink history)
  · exact coherent_initially levels sink
  · intro history before action event after coherent stepped
    obtain ⟨keeps, stepped⟩ := StepSystem.restrict_step.mp stepped
    rw [requests_append]
    exact coherent.kept (local_step keeps stepped)

/-- While the safe mode stays on, no two threads are in the output functions of a sink. Its output is the
requests one after the other, in the order in which they got the mutex, and each of them in one piece,
except that the end of the last one is missing while a thread is in the middle of it. Only debug and
trace messages are not flushed yet, besides the one that is about to be. -/
theorem messages_whole {levels : Sink → Level} {state : Sinks Sink Thread}
    (run : (safeSinks Sink Thread).Run (initially levels) history state) (sink : Sink) :
    (∀ thread other stage stage', state.stages sink thread = some stage →
      state.stages sink other = some stage' → stage.inside = true → stage'.inside = true →
      thread = other) ∧
    (∃ unwritten, joined (requests sink history) = (state.sinks sink).written ++ unwritten ∧
      unwritten <:+ lastText (requests sink history) ∧
      ((state.sinks sink).mux = none → unwritten = [])) ∧
    ∃ front tail owed, requests sink history = front ++ tail ++ owed ∧
      (state.sinks sink).flushed = joined front ∧ (∀ request ∈ tail, request.flushes = false) ∧
      owed.length ≤ 1 ∧ ((state.sinks sink).mux = none → owed = []) := by
  have coherent := run_coherent run sink
  refine ⟨?_, ⟨_, coherent.written.1, coherent.written.2, ?_⟩, ?_⟩
  · intro thread other stage stage' here there inside inside'
    have first := (coherent.holder thread).mpr ⟨stage, here, inside⟩
    have second := (coherent.holder other).mpr ⟨stage', there, inside'⟩
    exact Option.some.inj (first.symm.trans second)
  · intro free
    rw [LogSink.unwritten, LogSink.current, free]
    rfl
  · obtain ⟨front, tail, owed, parts, flushed, quiet, length⟩ := coherent.durable
    refine ⟨front, tail, owed, parts, flushed, quiet, ?_, ?_⟩
    · rw [length]
      split <;> decide
    · intro free
      rw [LogSink.owing, LogSink.current, free] at length
      exact List.length_eq_zero_iff.mp length

/-- A debug message into one sink. -/
def debugCall : Call Nat where
  logger := { currentLogLevel := .debug, loggingName := ascii "[A]", sinks := [0] }
  lvl := .debug
  passed := 5
  threadId := OutputStream.insertText (ascii "1")
  args := [OutputStream.insertText (ascii "x")]

/-- Another thread waits for its flush while the message is written. -/
def sinkActions : List (SinkAction Nat Nat) :=
  [.log 0 debugCall, .tick 0, .tick 0, .tick 0, .flush 1 0, .tick 1, .tick 0, .tick 0]

theorem messages_whole_waiting :
    ∃ history state, (safeSinks Nat Nat).Run (initially fun _ => .trace) history state ∧
      (state.sinks 0).written = ascii "DE" ∧ state.stages 0 1 = some (.waiting .flush) ∧
      ∃ unwritten, joined (requests 0 history) = ascii "DE" ++ unwritten ∧
        unwritten <:+ lastText (requests 0 history) ∧
        ∃ front tail owed, requests 0 history = front ++ tail ++ owed ∧ [] = joined front ∧
          (∀ request ∈ tail, request.flushes = false) ∧ owed.length ≤ 1 := by
  have executed : ((safeSinks Nat Nat).execute (initially fun _ => .trace) sinkActions).map
      (fun answer => ((answer.2.sinks 0).written, (answer.2.sinks 0).flushed, answer.2.stages 0 1)) =
      some (ascii "DE", [], some (.waiting .flush)) := by
    decide +kernel
  obtain ⟨⟨history, state⟩, ran, final⟩ := Option.map_eq_some_iff.mp executed
  simp only [Prod.mk.injEq] at final
  obtain ⟨written, flushed, waits⟩ := final
  have run := StepSystem.run_of_execute sinkActions ran
  obtain ⟨-, ⟨unwritten, all, ending, -⟩, front, tail, owed, parts, durable, quiet, length, -⟩ :=
    messages_whole run 0
  rw [written] at all
  rw [flushed] at durable
  exact ⟨history, state, run, written, waits, unwritten, all, ending, front, tail, owed, parts, durable,
    quiet, length⟩

/-- Where the safe mode is switched off meanwhile, two threads are in the output functions at once. -/
example : ((sinkSystem Nat Nat).execute (initially fun _ => .trace)
    [.log 0 debugCall, .tick 0, .tick 0, .tick 0, .enableThreadSafeMode 0 false, .log 1 debugCall,
      .tick 1, .tick 1]).map (fun answer => ((answer.2.stages 0 0).any Stage.inside,
        (answer.2.stages 0 1).any Stage.inside)) = some (true, true) := by
  decide +kernel

end Runs

end MartCommon.Log
