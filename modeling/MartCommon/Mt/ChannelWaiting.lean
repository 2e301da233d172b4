import MartCommon.Library.Monitor
import MartCommon.Mt.Channel

namespace MartCommon.Mt.Channel

open Library

/-- The member functions that may be blocked. -/
inductive Receiver where
  | receive
  | tryReceiveFor
  deriving DecidableEq

section Members

variable {Thread Value : Type*}

def clear (channel : Channel Value) : Channel Value := { channel with fifo := [] }

def reset (channel : Channel Value) : Channel Value := { channel with fifo := [], cancel := false }

/-- The condition of both waits. -/
def ready (channel : Channel Value) : Bool := !channel.fifo.isEmpty || channel.cancel

/-- What a receiver does with the mutex. It is blocked again if the condition does not hold, unless it is
the one with the timeout, and its time is up. -/
def Receiver.attempt (receiver : Receiver) (thread : Thread) (expired : Bool) (channel : Channel Value) :
    Event Thread Value × Channel Value :=
  match receiver with
  | .receive => Channel.receive thread channel
  | .tryReceiveFor =>
      if channel.ready || expired then Channel.tryReceiveFor thread channel else (.waits thread, channel)

def Event.isWaits : Event Thread Value → Bool
  | .waits _ => true
  | _ => false

end Members

/-- A channel with the threads in its member functions: those that wait for `_cv_non_empty`, and those
in front of the `notify_all` of `cancel_read`, which comes behind the critical section. -/
structure Threads (Thread Value : Type*) where
  channel : Channel Value := {}
  nonEmpty : Monitor Thread Receiver := {}
  notifying : List Thread := []

/-- A thread calls a member function or goes on in the one that it is in. `notify_one` wakes any one of
the blocked threads, and a blocked thread may wake for no reason or because its time is up. -/
inductive Action (Thread Value : Type*) where
  | send (thread : Thread) (value : Value) (wakes : Option Thread)
  | tryReceive (thread : Thread) (locked : Bool)
  | call (thread : Thread) (receiver : Receiver)
  | attempt (thread : Thread) (expired : Bool)
  | wake (thread : Thread)
  | cancelRead (thread : Thread)
  | notifyAll (thread : Thread)
  | clear (thread : Thread)
  | reset (thread : Thread)

/-- What is seen of a step: a critical section, values that are dropped, or nothing. -/
inductive Seen (Thread Value : Type*) where
  | locked (event : Event Thread Value)
  | dropped (values : List Value)
  | silent

variable {Thread Value : Type*} [DecidableEq Thread]

/-- A thread is in none of the member functions. -/
def Threads.Idle (state : Threads Thread Value) (thread : Thread) : Prop :=
  ¬ state.nonEmpty.Holds thread ∧ thread ∉ state.notifying

instance (state : Threads Thread Value) (thread : Thread) : Decidable (state.Idle thread) :=
  inferInstanceAs (Decidable (_ ∧ _))

/-- The thread of a call, which is in no other one. -/
def Action.caller : Action Thread Value → Option Thread
  | .send thread _ _ | .tryReceive thread _ | .call thread _ | .cancelRead thread | .clear thread
  | .reset thread => some thread
  | .attempt _ _ | .wake _ | .notifyAll _ => none

namespace Threads

/-- A step of a thread. -/
def go (state : Threads Thread Value) :
    Action Thread Value → Option (Seen Thread Value × Threads Thread Value)
  | .send thread value wakes =>
      let sent := send thread value state.channel
      (state.nonEmpty.notifyOne wakes).map fun nonEmpty =>
        (.locked sent.1, { state with channel := sent.2, nonEmpty := nonEmpty })
  | .tryReceive thread locked =>
      let tried := tryReceive thread locked state.channel
      some (.locked tried.1, { state with channel := tried.2 })
  | .call thread receiver =>
      some (.silent, { state with nonEmpty := state.nonEmpty.arrive thread receiver })
  | .attempt thread expired =>
      (state.nonEmpty.leave thread).map fun left =>
        let tried := left.1.attempt thread expired state.channel
        (.locked tried.1, { state with
          channel := tried.2
          nonEmpty := if tried.1.isWaits then left.2.sleep thread left.1 else left.2 })
  | .wake thread =>
      (state.nonEmpty.wake thread).map fun nonEmpty => (.silent, { state with nonEmpty := nonEmpty })
  | .cancelRead thread =>
      let canceled := cancelRead thread state.channel
      some (.locked canceled.1,
        { state with channel := canceled.2, notifying := thread :: state.notifying })
  | .notifyAll thread =>
      if thread ∈ state.notifying then
        some (.silent, { state with
          nonEmpty := state.nonEmpty.notifyAll, notifying := state.notifying.erase thread })
      else none
  | .clear _ => some (.dropped state.channel.fifo, { state with channel := state.channel.clear })
  | .reset _ => some (.dropped state.channel.fifo, { state with channel := state.channel.reset })

/-- A thread that is in a member function calls no other one. -/
def step (state : Threads Thread Value) (action : Action Thread Value) :
    Option (Seen Thread Value × Threads Thread Value) :=
  if ∀ thread ∈ action.caller, state.Idle thread then go state action else none

end Threads

def threads (Thread Value : Type*) [DecidableEq Thread] :
    StepSystem (Threads Thread Value) (Action Thread Value) (Seen Thread Value) := ⟨Threads.step⟩

/-- The critical sections of a history. -/
def sections : List (Seen Thread Value) → List (Event Thread Value) :=
  List.filterMap fun
    | .locked event => some event
    | _ => none

/-- The values that left the queue, received or dropped. -/
def departed : List (Seen Thread Value) → List Value :=
  List.flatMap fun
    | .locked event => receivedValues [event]
    | .dropped values => values
    | .silent => []

section Values

variable {history : List (Seen Thread Value)} {before after : Threads Thread Value}
  {channel changed : Channel Value} {action : Action Thread Value} {seen : Seen Thread Value}

omit [DecidableEq Thread] in
/-- A receiver that is blocked again does what `receive` does where its condition does not hold. -/
theorem exists_section (receiver : Receiver) (thread : Thread) (expired : Bool) (channel : Channel Value) :
    ∃ action, Channel.step channel action = some (receiver.attempt thread expired channel) := by
  cases receiver with
  | receive => exact ⟨.receive thread, rfl⟩
  | tryReceiveFor =>
      rw [Receiver.attempt]
      split
      · exact ⟨.tryReceiveFor thread, rfl⟩
      · rename_i blocked
        have unready : channel.ready = false := by
          cases ready : channel.ready with
          | false => rfl
          | true => exact absurd (by rw [ready, Bool.true_or]) blocked
        refine ⟨.receive thread, ?_⟩
        rw [Channel.step, Channel.receive, ← ready, unready]
        rfl

/-- The steps of the threads are critical sections, they drop what is stored, or they leave the channel
as it is. -/
theorem step_sections (stepped : before.step action = some (seen, after)) :
    (∃ event entry, seen = .locked event ∧
      Channel.step before.channel entry = some (event, after.channel)) ∨
    (seen = .dropped before.channel.fifo ∧ after.channel.fifo = [] ∧
      (after.channel.cancel = true → before.channel.cancel = true)) ∨
    (seen = .silent ∧ after.channel = before.channel) := by
  obtain ⟨-, gone⟩ := Option.ite_none_right_eq_some.mp stepped
  cases action with
  | send thread value wakes =>
      obtain ⟨nonEmpty, -, same⟩ := Option.map_eq_some_iff.mp gone
      cases same
      exact .inl ⟨_, .send thread value, rfl, rfl⟩
  | tryReceive thread locked =>
      cases gone
      exact .inl ⟨_, .tryReceive thread locked, rfl, rfl⟩
  | call thread receiver =>
      cases gone
      exact .inr (.inr ⟨rfl, rfl⟩)
  | attempt thread expired =>
      obtain ⟨left, -, same⟩ := Option.map_eq_some_iff.mp gone
      cases same
      obtain ⟨entry, stepped⟩ := exists_section left.1 thread expired before.channel
      exact .inl ⟨_, entry, rfl, stepped⟩
  | wake thread =>
      obtain ⟨nonEmpty, -, same⟩ := Option.map_eq_some_iff.mp gone
      cases same
      exact .inr (.inr ⟨rfl, rfl⟩)
  | cancelRead thread =>
      cases gone
      exact .inl ⟨_, .cancelRead thread, rfl, rfl⟩
  | notifyAll thread =>
      obtain ⟨-, same⟩ := Option.ite_none_right_eq_some.mp gone
      cases same
      exact .inr (.inr ⟨rfl, rfl⟩)
  | clear thread =>
      cases gone
      exact .inr (.inl ⟨rfl, rfl, id⟩)
  | reset thread =>
      cases gone
      exact .inr (.inl ⟨rfl, rfl, fun canceled => absurd canceled Bool.false_ne_true⟩)

omit [DecidableEq Thread] in
theorem sentValues_append (first second : List (Event Thread Value)) :
    sentValues (first ++ second) = sentValues first ++ sentValues second := by
  rw [sentValues_eq, List.filterMap_append, Fifo.puts_append, ← sentValues_eq, ← sentValues_eq]

omit [DecidableEq Thread] in
theorem receivedValues_append (first second : List (Event Thread Value)) :
    receivedValues (first ++ second) = receivedValues first ++ receivedValues second := by
  rw [receivedValues_eq, List.filterMap_append, Fifo.takes_append, ← receivedValues_eq,
    ← receivedValues_eq]

/-- The values that departed, followed by the stored ones, are the values sent. Those that were received
are among the ones that departed, in their order, and each exception is paid for by a `cancel_read`. -/
structure Conserved (history : List (Seen Thread Value)) (channel : Channel Value) : Prop where
  values : departed history ++ channel.fifo = sentValues (sections history)
  received : (receivedValues (sections history)).Sublist (departed history)
  paid : (sections history).countP Event.isCanceled + (if channel.cancel then 1 else 0) ≤
    (sections history).countP Event.isCancelRead
  defined : ∀ event ∈ sections history, event.isUndefined = false

omit [DecidableEq Thread] in
theorem sections_locked (history : List (Seen Thread Value)) (event : Event Thread Value) :
    sections (history ++ [.locked event]) = sections history ++ [event] :=
  List.filterMap_append

omit [DecidableEq Thread] in
theorem departed_append (first second : List (Seen Thread Value)) :
    departed (first ++ second) = departed first ++ departed second :=
  List.flatMap_append

omit [DecidableEq Thread] in
/-- A critical section moves values as an operation of the queue does. -/
theorem Conserved.locked {entry : Section Thread Value} {event : Event Thread Value}
    (conserved : Conserved history channel) (stepped : Channel.step channel entry = some (event, changed)) :
    Conserved (history ++ [.locked event]) changed := by
  obtain ⟨values, received, paid, defined⟩ := conserved
  have went : departed (history ++ [.locked event]) = departed history ++ receivedValues [event] := by
    rw [departed_append]
    exact congrArg _ (List.append_nil _)
  have quiet : event.isUndefined = false → ∀ entry ∈ sections history ++ [event],
      entry.isUndefined = false := by
    intro known entry member
    rcases List.mem_append.mp member with earlier | last
    · exact defined entry earlier
    · rw [List.mem_singleton.mp last]
      exact known
  constructor
  · rw [went, sections_locked, sentValues_append, ← values, List.append_assoc, List.append_assoc]
    obtain ⟨thread, value, rfl, rfl⟩ | ⟨thread, value, rest, rfl, parts, rfl⟩ |
      ⟨thread, rfl, pending, rfl⟩ | ⟨thread, rfl, rfl⟩ | ⟨⟨thread, quiet⟩, rfl⟩ := step_cases stepped
    · rfl
    · rw [parts]
      exact congrArg _ (List.append_nil _).symm
    · exact congrArg _ (List.append_nil _).symm
    · exact congrArg _ (List.append_nil _).symm
    · rcases quiet with rfl | rfl <;> exact congrArg _ (List.append_nil _).symm
  · rw [went, sections_locked, receivedValues_append]
    exact received.append (.refl _)
  · rw [sections_locked, List.countP_append, List.countP_append]
    obtain ⟨thread, value, rfl, rfl⟩ | ⟨thread, value, rest, rfl, parts, rfl⟩ |
      ⟨thread, rfl, pending, rfl⟩ | ⟨thread, rfl, rfl⟩ | ⟨⟨thread, quiet⟩, rfl⟩ := step_cases stepped
    · exact paid
    · exact paid
    · rw [pending] at paid
      exact paid
    · have room : (if channel.cancel = true then 1 else 0) ≤ 1 := by split <;> decide
      show _ + 0 + 1 ≤ _ + 1
      omega
    · rcases quiet with rfl | rfl <;> exact paid
  · rw [sections_locked]
    apply quiet
    obtain ⟨thread, value, rfl, rfl⟩ | ⟨thread, value, rest, rfl, parts, rfl⟩ |
      ⟨thread, rfl, pending, rfl⟩ | ⟨thread, rfl, rfl⟩ | ⟨⟨thread, quiet⟩, rfl⟩ := step_cases stepped
    · rfl
    · rfl
    · rfl
    · rfl
    · rcases quiet with rfl | rfl <;> rfl

theorem conserved_step (conserved : Conserved history before.channel)
    (stepped : before.step action = some (seen, after)) : Conserved (history ++ [seen]) after.channel := by
  rcases step_sections stepped with ⟨event, entry, rfl, done⟩ | ⟨rfl, empty, less⟩ | ⟨rfl, same⟩
  · exact conserved.locked done
  · obtain ⟨values, received, paid, defined⟩ := conserved
    have went : departed (history ++ [Seen.dropped before.channel.fifo]) =
        departed history ++ before.channel.fifo := by
      rw [departed_append]
      exact congrArg _ (List.append_nil _)
    have unseen : sections (history ++ [Seen.dropped before.channel.fifo]) = sections history :=
      List.filterMap_append.trans (List.append_nil _)
    constructor
    · rw [went, unseen, empty, List.append_nil, values]
    · rw [went, unseen]
      exact received.trans (List.sublist_append_left _ _)
    · rw [unseen]
      split
      · rename_i canceled
        rw [less canceled] at paid
        exact paid
      · exact Nat.le_of_add_right_le paid
    · rw [unseen]
      exact defined
  · have went : departed (history ++ [Seen.silent]) = departed history := by
      rw [departed_append]
      exact List.append_nil _
    have unseen : sections (history ++ [Seen.silent]) = sections history :=
      List.filterMap_append.trans (List.append_nil _)
    rw [same]
    constructor
    · rw [went, unseen, conserved.values]
    · rw [went, unseen]
      exact conserved.received
    · rw [unseen]
      exact conserved.paid
    · rw [unseen]
      exact conserved.defined

/-- However the threads are interleaved, blocked and woken, and whenever the queue is cleared or reset: each
value that was sent is stored, or it departed once and in the order of the sends, to a receiver or by a
`clear` or `reset`. No receiver reads an empty queue, and each exception is paid for by a `cancel_read`. -/
theorem values_conserved {state : Threads Thread Value}
    (run : (threads Thread Value).Run {} history state) :
    departed history ++ state.channel.fifo = sentValues (sections history) ∧
      (receivedValues (sections history)).Sublist (sentValues (sections history)) ∧
      (sections history).countP Event.isCanceled ≤ (sections history).countP Event.isCancelRead ∧
      ∀ event ∈ sections history, event.isUndefined = false := by
  have conserved : Conserved history state.channel := by
    apply run.invariant fun history (state : Threads Thread Value) => Conserved history state.channel
    · exact ⟨rfl, .refl _, Nat.le_refl _, fun event absurdity => nomatch absurdity⟩
    · intro history before action seen after conserved stepped
      exact conserved_step conserved stepped
  obtain ⟨values, received, paid, defined⟩ := conserved
  refine ⟨values, ?_, Nat.le_of_add_right_le paid, defined⟩
  rw [← values]
  exact received.trans (List.sublist_append_left _ _)

/-- A blocked receiver gets the first value, the second one is cleared, and a receiver is canceled in front
of the `notify_all`. -/
def waitingActions : List (Action Nat Nat) :=
  [.call 0 .receive, .attempt 0 false, .send 1 10 (some 0), .send 1 20 none, .attempt 0 false, .clear 2,
    .cancelRead 2, .call 0 .receive, .attempt 0 false, .notifyAll 2, .send 1 30 none]

theorem values_conserved_cleared :
    ∃ history state, (threads Nat Nat).Run {} history state ∧ departed history = [10, 20] ∧
      receivedValues (sections history) = [10] ∧ departed history ++ [30] = sentValues (sections history) :=
  ⟨_, _, StepSystem.run_of_execute waitingActions rfl, rfl, rfl,
    (values_conserved (StepSystem.run_of_execute waitingActions rfl)).1⟩

end Values

end MartCommon.Mt.Channel
