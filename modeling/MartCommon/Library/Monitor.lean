import MartCommon.Library.Pool

namespace MartCommon.Library

/-- The threads that are blocked on a condition variable, and those that are going to take its mutex
and to test their condition. -/
structure Monitor (Thread Call : Type*) where
  asleep : Pool Thread Call := []
  awake : Pool Thread Call := []

namespace Monitor

variable {Thread Call : Type*} [DecidableEq Thread]

/-- A thread is blocked, or it is going to take the mutex. -/
def Holds (monitor : Monitor Thread Call) (thread : Thread) : Prop :=
  thread ∈ monitor.asleep.map Prod.fst ∨ thread ∈ monitor.awake.map Prod.fst

instance (monitor : Monitor Thread Call) (thread : Thread) : Decidable (monitor.Holds thread) :=
  inferInstanceAs (Decidable (_ ∨ _))

/-- The number of threads that are in here. -/
def size (monitor : Monitor Thread Call) : Nat := monitor.asleep.length + monitor.awake.length

def arrive (monitor : Monitor Thread Call) (thread : Thread) (call : Call) : Monitor Thread Call :=
  { monitor with awake := (thread, call) :: monitor.awake }

/-- A thread takes the mutex. -/
def leave (monitor : Monitor Thread Call) (thread : Thread) : Option (Call × Monitor Thread Call) :=
  (Pool.take thread monitor.awake).map fun taken => (taken.1, { monitor with awake := taken.2 })

/-- A thread that has the mutex is blocked, and gives the mutex back. -/
def sleep (monitor : Monitor Thread Call) (thread : Thread) (call : Call) : Monitor Thread Call :=
  { monitor with asleep := (thread, call) :: monitor.asleep }

def wake (monitor : Monitor Thread Call) (thread : Thread) : Option (Monitor Thread Call) :=
  (Pool.take thread monitor.asleep).map fun taken =>
    { asleep := taken.2, awake := (thread, taken.1) :: monitor.awake }

/-- One of the blocked threads is woken, if there are any. -/
def notifyOne (monitor : Monitor Thread Call) : Option Thread → Option (Monitor Thread Call)
  | some thread => monitor.wake thread
  | none => if monitor.asleep.isEmpty then some monitor else none

def notifyAll (monitor : Monitor Thread Call) : Monitor Thread Call :=
  { asleep := [], awake := monitor.asleep ++ monitor.awake }

/-- While a thread is blocked, each one of the available resources has a thread that is going to look
for one. -/
def Covers (monitor : Monitor Thread Call) (available : Nat) : Prop :=
  monitor.asleep ≠ [] → available ≤ monitor.awake.length

section Rules

variable {monitor after : Monitor Thread Call} {thread : Thread} {call : Call} {available : Nat}

theorem leave_eq_some (left : monitor.leave thread = some (call, after)) :
    after.asleep = monitor.asleep ∧ monitor.awake.length = after.awake.length + 1 := by
  obtain ⟨⟨found, rest⟩, taken, same⟩ := Option.map_eq_some_iff.mp left
  obtain ⟨-, rfl⟩ := Prod.mk.inj same
  exact ⟨rfl, (Pool.take_perm taken).length_eq⟩

theorem wake_eq_some (woken : monitor.wake thread = some after) :
    monitor.asleep.length = after.asleep.length + 1 ∧ after.awake.length = monitor.awake.length + 1 := by
  obtain ⟨⟨found, rest⟩, taken, rfl⟩ := Option.map_eq_some_iff.mp woken
  exact ⟨(Pool.take_perm taken).length_eq, rfl⟩

theorem notifyOne_eq_some {choice : Option Thread} (notified : monitor.notifyOne choice = some after) :
    monitor.asleep = [] ∧ after = monitor ∨
      monitor.asleep.length = after.asleep.length + 1 ∧ after.awake.length = monitor.awake.length + 1 := by
  cases choice with
  | none =>
      obtain ⟨none, same⟩ := Option.ite_none_right_eq_some.mp notified
      exact .inl ⟨List.isEmpty_iff.mp none, (Option.some.inj same).symm⟩
  | some thread => exact .inr (wake_eq_some notified)

omit [DecidableEq Thread] in
theorem covers_none : monitor.Covers 0 := fun _ => Nat.zero_le _

omit [DecidableEq Thread] in
theorem covers_of_asleep (none : monitor.asleep = []) : monitor.Covers available :=
  fun some => absurd none some

omit [DecidableEq Thread] in
theorem Covers.less {fewer : Nat} (covers : monitor.Covers available) (less : fewer ≤ available) :
    monitor.Covers fewer :=
  fun blocked => Nat.le_trans less (covers blocked)

omit [DecidableEq Thread] in
theorem Covers.arrive (covers : monitor.Covers available) : (monitor.arrive thread call).Covers available :=
  fun blocked => Nat.le_succ_of_le (covers blocked)

omit [DecidableEq Thread] in
theorem covers_notifyAll : monitor.notifyAll.Covers available :=
  covers_of_asleep rfl

/-- A thread that wakes for no reason does no harm. -/
theorem Covers.wake (covers : monitor.Covers available) (woken : monitor.wake thread = some after) :
    after.Covers available := by
  obtain ⟨fewer, more⟩ := wake_eq_some woken
  intro blocked
  have before : monitor.asleep ≠ [] := List.ne_nil_of_length_eq_add_one fewer
  rw [more]
  exact Nat.le_succ_of_le (covers before)

/-- Each new resource wakes a thread that looks for it. -/
theorem Covers.notifyOne {choice : Option Thread} (covers : monitor.Covers available)
    (notified : monitor.notifyOne choice = some after) : after.Covers (available + 1) := by
  rcases notifyOne_eq_some notified with ⟨none, rfl⟩ | ⟨fewer, more⟩
  · exact covers_of_asleep none
  · intro blocked
    have before : monitor.asleep ≠ [] := List.ne_nil_of_length_eq_add_one fewer
    rw [more]
    exact Nat.add_le_add_right (covers before) 1

/-- A thread that takes the mutex takes a resource, unless there is none. -/
theorem Covers.leave (covers : monitor.Covers available)
    (left : monitor.leave thread = some (call, after)) : after.Covers (available - 1) := by
  obtain ⟨same, more⟩ := leave_eq_some left
  intro blocked
  have enough := covers (same ▸ blocked)
  rw [more] at enough
  exact Nat.sub_le_of_le_add enough

end Rules

end Monitor

end MartCommon.Library
