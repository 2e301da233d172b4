import MartCommon.Library.Fifo
import Mathlib.Data.List.Count

namespace MartCommon.Mt

open Library

/-- The mutex protects the queue and the cancel flag, so both change in critical sections only. -/
structure Channel (Value : Type*) where
  fifo : List Value := []
  cancel : Bool := false

namespace Channel

variable {Thread Value : Type*}

/-- What a critical section does, as its thread sees it. `undefined` is a `front()` or `pop()` on
an empty queue. -/
inductive Event (Thread Value : Type*) where
  | sent (thread : Thread) (value : Value)
  | received (thread : Thread) (value : Value)
  | notReceived (thread : Thread)
  | waits (thread : Thread)
  | canceled (thread : Thread)
  | cancelRead (thread : Thread)
  | undefined (thread : Thread)

/-- A critical section of a member function. A `try_receive` without a timeout may find the mutex
locked, and the one with a timeout ends its wait at any time. -/
inductive Section (Thread Value : Type*) where
  | send (thread : Thread) (value : Value)
  | tryReceive (thread : Thread) (locked : Bool)
  | tryReceiveFor (thread : Thread)
  | receive (thread : Thread)
  | cancelRead (thread : Thread)

/-- `receive_target = std::move( _fifo.front() ); _fifo.pop();` -/
def popFront (thread : Thread) (channel : Channel Value) : Event Thread Value × Channel Value :=
  match channel.fifo with
  | [] => (.undefined thread, channel)
  | value :: rest => (.received thread value, { channel with fifo := rest })

def send (thread : Thread) (value : Value) (channel : Channel Value) :
    Event Thread Value × Channel Value :=
  (.sent thread value, { channel with fifo := channel.fifo ++ [value] })

def tryReceive (thread : Thread) (locked : Bool) (channel : Channel Value) :
    Event Thread Value × Channel Value :=
  if locked then
    if !channel.fifo.isEmpty then popFront thread channel else (.notReceived thread, channel)
  else (.notReceived thread, channel)

/-- The section after `wait_for` ignores the cancel flag. -/
def tryReceiveFor (thread : Thread) (channel : Channel Value) :
    Event Thread Value × Channel Value :=
  if !channel.fifo.isEmpty then popFront thread channel else (.notReceived thread, channel)

/-- The wait goes on while the queue is empty and no cancellation is pending. A pending one is
consumed, also when the queue holds values. -/
def receive (thread : Thread) (channel : Channel Value) : Event Thread Value × Channel Value :=
  if !channel.fifo.isEmpty || channel.cancel then
    if channel.cancel then (.canceled thread, { channel with cancel := false })
    else popFront thread channel
  else (.waits thread, channel)

def cancelRead (thread : Thread) (channel : Channel Value) : Event Thread Value × Channel Value :=
  (.cancelRead thread, { channel with cancel := true })

def step (channel : Channel Value) :
    Section Thread Value → Option (Event Thread Value × Channel Value)
  | .send thread value => some (send thread value channel)
  | .tryReceive thread locked => some (tryReceive thread locked channel)
  | .tryReceiveFor thread => some (tryReceiveFor thread channel)
  | .receive thread => some (receive thread channel)
  | .cancelRead thread => some (cancelRead thread channel)

def system (Thread Value : Type*) :
    StepSystem (Channel Value) (Section Thread Value) (Event Thread Value) := ⟨step⟩

/-- The queue view of an event: values that enter and leave. -/
def Event.queued : Event Thread Value → Option (Fifo.Event Value)
  | .sent _ value => some (.put value)
  | .received _ value => some (.take value)
  | _ => none

/-- A receiver that tests for a value first removes the oldest one. -/
theorem received_of_filled {thread : Thread} {before after : Channel Value}
    {event : Event Thread Value} (filled : before.fifo ≠ [])
    (popped : popFront thread before = (event, after)) :
    ∃ value rest, event = .received thread value ∧ before.fifo = value :: rest ∧
      after = { before with fifo := rest } := by
  obtain ⟨value, rest, parts⟩ := List.exists_cons_of_ne_nil filled
  have oldest : popFront thread before = (.received thread value, { before with fifo := rest }) := by
    simp [popFront, parts]
  rw [oldest] at popped
  cases popped
  exact ⟨value, rest, rfl, parts, rfl⟩

/-- A section sends a value, removes the oldest value of a filled queue, consumes or sets the
cancel flag, or leaves the channel as it is. -/
theorem step_cases {before after : Channel Value} {action : Section Thread Value}
    {event : Event Thread Value} (stepped : step before action = some (event, after)) :
    (∃ thread value, event = .sent thread value ∧
      after = { before with fifo := before.fifo ++ [value] }) ∨
    (∃ thread value rest, event = .received thread value ∧ before.fifo = value :: rest ∧
      after = { before with fifo := rest }) ∨
    (∃ thread, event = .canceled thread ∧ before.cancel = true ∧
      after = { before with cancel := false }) ∨
    (∃ thread, event = .cancelRead thread ∧ after = { before with cancel := true }) ∨
    ((∃ thread, event = .notReceived thread ∨ event = .waits thread) ∧ after = before) := by
  cases action with
  | send thread value =>
      simp only [step, send, Option.some.injEq, Prod.mk.injEq] at stepped
      exact .inl ⟨thread, value, stepped.1.symm, stepped.2.symm⟩
  | tryReceive thread locked =>
      simp only [step, tryReceive, Option.some.injEq] at stepped
      split at stepped
      · split at stepped
        · rename_i filled
          exact .inr (.inl ⟨thread, received_of_filled (by simpa using filled) stepped⟩)
        · cases stepped
          exact .inr (.inr (.inr (.inr ⟨⟨thread, .inl rfl⟩, rfl⟩)))
      · cases stepped
        exact .inr (.inr (.inr (.inr ⟨⟨thread, .inl rfl⟩, rfl⟩)))
  | tryReceiveFor thread =>
      simp only [step, tryReceiveFor, Option.some.injEq] at stepped
      split at stepped
      · rename_i filled
        exact .inr (.inl ⟨thread, received_of_filled (by simpa using filled) stepped⟩)
      · cases stepped
        exact .inr (.inr (.inr (.inr ⟨⟨thread, .inl rfl⟩, rfl⟩)))
  | receive thread =>
      simp only [step, receive, Option.some.injEq] at stepped
      split at stepped
      · split at stepped
        · rename_i pending
          cases stepped
          exact .inr (.inr (.inl ⟨thread, rfl, pending, rfl⟩))
        · rename_i awake uncanceled
          have filled : before.fifo ≠ [] := by simpa [uncanceled] using awake
          exact .inr (.inl ⟨thread, received_of_filled filled stepped⟩)
      · cases stepped
        exact .inr (.inr (.inr (.inr ⟨⟨thread, .inr rfl⟩, rfl⟩)))
  | cancelRead thread =>
      simp only [step, cancelRead, Option.some.injEq, Prod.mk.injEq] at stepped
      exact .inr (.inr (.inr (.inl ⟨thread, stepped.1.symm, stepped.2.symm⟩)))

/-- The critical sections refine a queue: only sends and receives are visible there. -/
def refinement (Thread Value : Type*) :
    StepSystem.Refinement (system Thread Value) (Fifo.system Value) where
  relation channel queue := channel.fifo = queue
  visible := Event.queued
  simulate := by
    intro before event after action queue related stepped
    obtain ⟨thread, value, rfl, rfl⟩ | ⟨thread, value, rest, rfl, parts, rfl⟩ |
      ⟨thread, rfl, _, rfl⟩ | ⟨thread, rfl, rfl⟩ | ⟨⟨thread, quiet⟩, rfl⟩ := step_cases stepped
    · exact ⟨.put value, _, rfl, by rw [related]⟩
    · refine ⟨.take, rest, ?_, rfl⟩
      simp [Fifo.system, Fifo.step, ← related, parts]
    · exact related
    · exact related
    · rcases quiet with rfl | rfl <;> exact related

/-- The values sent, in the order of their critical sections. -/
def sentValues : List (Event Thread Value) → List Value
  | [] => []
  | .sent _ value :: rest => value :: sentValues rest
  | _ :: rest => sentValues rest

/-- The values removed by receivers, in removal order. -/
def receivedValues : List (Event Thread Value) → List Value
  | [] => []
  | .received _ value :: rest => value :: receivedValues rest
  | _ :: rest => receivedValues rest

theorem sentValues_eq (history : List (Event Thread Value)) :
    sentValues history = Fifo.puts (history.filterMap Event.queued) := by
  induction history with
  | nil => rfl
  | cons event rest ih => cases event <;> simp [sentValues, Event.queued, Fifo.puts, List.filterMap_cons, ih]

theorem receivedValues_eq (history : List (Event Thread Value)) :
    receivedValues history = Fifo.takes (history.filterMap Event.queued) := by
  induction history with
  | nil => rfl
  | cons event rest ih => cases event <;> simp [receivedValues, Event.queued, Fifo.takes, List.filterMap_cons, ih]

def Event.isCanceled : Event Thread Value → Bool
  | .canceled _ => true
  | _ => false

def Event.isCancelRead : Event Thread Value → Bool
  | .cancelRead _ => true
  | _ => false

def Event.isUndefined : Event Thread Value → Bool
  | .undefined _ => true
  | _ => false

/-- A pending cancellation and the thrown exceptions are paid for by `cancel_read` calls, and no
section reads an empty queue. -/
theorem run_cancellations {history : List (Event Thread Value)} {channel : Channel Value}
    (run : (system Thread Value).Run {} history channel) :
    history.countP Event.isCanceled + (if channel.cancel then 1 else 0) ≤
        history.countP Event.isCancelRead ∧
      ∀ event ∈ history, event.isUndefined = false := by
  refine run.invariant (fun history channel =>
    history.countP Event.isCanceled + (if channel.cancel then 1 else 0) ≤
        history.countP Event.isCancelRead ∧
      ∀ event ∈ history, event.isUndefined = false) (by simp) ?_
  intro history before action event after kept stepped
  obtain ⟨paid, defined⟩ := kept
  simp only [List.countP_append, List.countP_singleton, List.mem_append, List.mem_singleton]
  obtain ⟨thread, value, rfl, rfl⟩ | ⟨thread, value, rest, rfl, _, rfl⟩ |
    ⟨thread, rfl, pending, rfl⟩ | ⟨thread, rfl, rfl⟩ | ⟨⟨thread, quiet⟩, rfl⟩ :=
      step_cases stepped
  · refine ⟨by simpa [Event.isCanceled, Event.isCancelRead] using paid, ?_⟩
    rintro event (old | rfl)
    · exact defined event old
    · rfl
  · refine ⟨by simpa [Event.isCanceled, Event.isCancelRead] using paid, ?_⟩
    rintro event (old | rfl)
    · exact defined event old
    · rfl
  · refine ⟨by simpa [Event.isCanceled, Event.isCancelRead, pending] using paid, ?_⟩
    rintro event (old | rfl)
    · exact defined event old
    · rfl
  · refine ⟨?_, ?_⟩
    · simp only [Event.isCanceled, Event.isCancelRead, ↓reduceIte, Bool.false_eq_true]
      split at paid <;> omega
    rintro event (old | rfl)
    · exact defined event old
    · rfl
  · refine ⟨?_, ?_⟩
    · rcases quiet with rfl | rfl <;>
        simpa [Event.isCanceled, Event.isCancelRead] using paid
    rintro event (old | rfl)
    · exact defined event old
    · rcases quiet with rfl | rfl <;> rfl

/-- The values removed by receivers, followed by the stored ones, are the values sent. A canceled
receive removes nothing, each exception is paid for by a `cancel_read` call, and the front of an
empty queue is never read. -/
theorem channel_conserves {history : List (Event Thread Value)} {channel : Channel Value}
    (run : (system Thread Value).Run {} history channel) :
    receivedValues history ++ channel.fifo = sentValues history ∧
      (∀ (action : Section Thread Value) thread after,
        step channel action = some (.canceled thread, after) →
        after.fifo = channel.fifo) ∧
      history.countP Event.isCanceled ≤ history.countP Event.isCancelRead ∧
      ∀ event ∈ history, event.isUndefined = false := by
  obtain ⟨queue, reached, related⟩ := (refinement Thread Value).run rfl run
  obtain ⟨paid, defined⟩ := run_cancellations run
  refine ⟨?_, ?_, by omega, defined⟩
  · rw [sentValues_eq, receivedValues_eq, show channel.fifo = queue from related]
    exact (Fifo.run_conserves reached).trans (List.nil_append _)
  · intro action thread after stepped
    obtain ⟨_, _, same, _⟩ | ⟨_, _, _, same, _⟩ | ⟨_, _, _, rfl⟩ | ⟨_, same, _⟩ |
      ⟨⟨_, same | same⟩, _⟩ := step_cases stepped
    · cases same
    · cases same
    · rfl
    · cases same
    · cases same
    · cases same

/-- Two threads send, a cancellation comes, and one receiver is canceled before another receives. -/
def canceledSections : List (Section Nat Nat) :=
  [.receive 0, .send 1 10, .send 2 20, .cancelRead 3, .receive 0, .receive 0]

theorem channel_conserves_canceled : ∃ history channel,
    (system Nat Nat).execute {} canceledSections = some (history, channel) ∧
      history.countP Event.isCanceled = 1 ∧ receivedValues history = [10] ∧
      receivedValues history ++ channel.fifo = sentValues history :=
  ⟨_, _, rfl, rfl, rfl, (channel_conserves (StepSystem.run_of_execute canceledSections rfl)).1⟩

end Channel

end MartCommon.Mt
