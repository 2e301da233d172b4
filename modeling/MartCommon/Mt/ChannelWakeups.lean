import MartCommon.Mt.ChannelWaiting

namespace MartCommon.Mt.Channel

open Library

/-- A thread that is in a member function, and not blocked, goes on. -/
def Action.goesOn {Thread Value : Type*} : Action Thread Value → Bool
  | .attempt _ _ => true
  | .notifyAll _ => true
  | _ => false

variable {Thread Value : Type*}

/-- Threads that go on take at most that many steps: each `notify_all` may wake all of the others. -/
def Threads.cost (state : Threads Thread Value) : Nat :=
  state.notifying.length * (state.nonEmpty.size + 1) + state.nonEmpty.awake.length

/-- While no `notify_all` is to come, a blocked receiver has no cancellation to wait for, and for each
value there is a receiver that is going to look for one. -/
structure Served (state : Threads Thread Value) : Prop where
  canceled : state.channel.cancel = true → state.notifying ≠ [] ∨ state.nonEmpty.asleep = []
  covered : state.notifying = [] → state.nonEmpty.Covers state.channel.fifo.length

/-- An attempt is blocked where the condition does not hold, it consumes a cancellation, or it takes a value
unless there is none. -/
theorem attempt_cases (receiver : Receiver) (thread : Thread) (expired : Bool) (channel : Channel Value) :
    ((receiver.attempt thread expired channel).1.isWaits = true ∧
      (receiver.attempt thread expired channel).2 = channel ∧ channel.fifo = [] ∧
      channel.cancel = false) ∨
    ((receiver.attempt thread expired channel).1.isWaits = false ∧ channel.cancel = true ∧
      (receiver.attempt thread expired channel).2 = { channel with cancel := false }) ∨
    ((receiver.attempt thread expired channel).1.isWaits = false ∧
      (receiver.attempt thread expired channel).2.cancel = channel.cancel ∧
      (receiver.attempt thread expired channel).2.fifo.length = channel.fifo.length - 1) := by
  obtain ⟨fifo, cancel⟩ := channel
  cases receiver with
  | receive =>
      cases cancel with
      | true => exact .inr (.inl ⟨by simp [Receiver.attempt, receive, Event.isWaits], rfl,
          by simp [Receiver.attempt, receive]⟩)
      | false =>
          cases fifo with
          | nil => exact .inl ⟨rfl, rfl, rfl, rfl⟩
          | cons value rest => exact .inr (.inr ⟨rfl, rfl, rfl⟩)
  | tryReceiveFor =>
      cases fifo with
      | cons value rest => exact .inr (.inr ⟨rfl, rfl, rfl⟩)
      | nil =>
          cases cancel with
          | true => exact .inr (.inr ⟨rfl, rfl, rfl⟩)
          | false =>
              cases expired with
              | true => exact .inr (.inr ⟨rfl, rfl, rfl⟩)
              | false => exact .inl ⟨rfl, rfl, rfl, rfl⟩

section Steps

variable [DecidableEq Thread] {before after state final : Threads Thread Value}
  {action : Action Thread Value} {seen : Seen Thread Value} {history events : List (Seen Thread Value)}

theorem served_step (served : Served before) (stepped : before.step action = some (seen, after)) :
    Served after := by
  obtain ⟨canceled, covered⟩ := served
  obtain ⟨-, gone⟩ := Option.ite_none_right_eq_some.mp stepped
  cases action with
  | send thread value wakes =>
      obtain ⟨nonEmpty, notified, same⟩ := Option.map_eq_some_iff.mp gone
      cases same
      constructor
      · intro pending
        rcases canceled pending with coming | none
        · exact .inl coming
        · rcases Monitor.notifyOne_eq_some notified with ⟨-, rfl⟩ | ⟨fewer, -⟩
          · exact .inr none
          · rw [none] at fewer
            contradiction
      · intro quiet
        show nonEmpty.Covers (before.channel.fifo ++ [value]).length
        rw [List.length_append]
        exact (covered quiet).notifyOne notified
  | tryReceive thread locked =>
      cases gone
      have less : (tryReceive thread locked before.channel).2.fifo.length ≤ before.channel.fifo.length ∧
          (tryReceive thread locked before.channel).2.cancel = before.channel.cancel := by
        obtain ⟨fifo, cancel⟩ := before.channel
        cases locked <;> cases fifo <;> simp [tryReceive, popFront]
      constructor
      · intro pending
        exact canceled (less.2 ▸ pending)
      · intro quiet
        exact (covered quiet).less less.1
  | call thread receiver =>
      cases gone
      exact ⟨canceled, fun quiet => (covered quiet).arrive⟩
  | attempt thread expired =>
      obtain ⟨⟨receiver, left⟩, leaves, same⟩ := Option.map_eq_some_iff.mp gone
      cases same
      obtain ⟨blocked, -⟩ := Monitor.leave_eq_some leaves
      rcases attempt_cases receiver thread expired before.channel with
        ⟨waits, unchanged, empty, uncanceled⟩ | ⟨returns, pending, changed⟩ | ⟨returns, same, fewer⟩
      · constructor
        · intro pending
          rw [unchanged, uncanceled] at pending
          contradiction
        · intro quiet
          show Monitor.Covers _ (receiver.attempt thread expired before.channel).2.fifo.length
          rw [unchanged, empty]
          exact Monitor.covers_none
      · constructor
        · intro still
          rw [changed] at still
          contradiction
        · intro quiet
          have none : before.nonEmpty.asleep = [] := (canceled pending).resolve_left fun coming => coming quiet
          show Monitor.Covers (if _ then _ else _) _
          rw [returns]
          exact Monitor.covers_of_asleep (blocked.trans none)
      · constructor
        · intro pending
          rw [same] at pending
          show before.notifying ≠ [] ∨ Monitor.asleep (if _ then _ else _) = []
          rw [returns]
          exact (canceled pending).imp_right blocked.trans
        · intro quiet
          show Monitor.Covers (if _ then _ else _) _
          rw [returns, fewer]
          exact (covered quiet).leave leaves
  | wake thread =>
      obtain ⟨nonEmpty, woken, same⟩ := Option.map_eq_some_iff.mp gone
      cases same
      constructor
      · intro pending
        refine (canceled pending).imp_right fun none => ?_
        obtain ⟨fewer, -⟩ := Monitor.wake_eq_some woken
        rw [none] at fewer
        contradiction
      · intro quiet
        exact (covered quiet).wake woken
  | cancelRead thread =>
      cases gone
      exact ⟨fun _ => .inl (List.cons_ne_nil _ _), fun quiet => absurd quiet (List.cons_ne_nil _ _)⟩
  | notifyAll thread =>
      obtain ⟨-, same⟩ := Option.ite_none_right_eq_some.mp gone
      cases same
      exact ⟨fun _ => .inr rfl, fun _ => Monitor.covers_notifyAll⟩
  | clear thread =>
      cases gone
      exact ⟨canceled, fun _ => Monitor.covers_none⟩
  | reset thread =>
      cases gone
      exact ⟨fun pending => absurd pending Bool.false_ne_true, fun _ => Monitor.covers_none⟩

/-- Going on costs a step. -/
theorem cost_step (going : action.goesOn = true) (stepped : before.step action = some (seen, after)) :
    after.cost < before.cost := by
  obtain ⟨-, gone⟩ := Option.ite_none_right_eq_some.mp stepped
  cases action with
  | attempt thread expired =>
      obtain ⟨⟨receiver, left⟩, leaves, same⟩ := Option.map_eq_some_iff.mp gone
      cases same
      obtain ⟨blocked, fewer⟩ := Monitor.leave_eq_some leaves
      have size : ∀ {tried : Monitor Thread Receiver},
          tried = left.sleep thread receiver ∨ tried = left →
          tried.size ≤ before.nonEmpty.size ∧ tried.awake.length < before.nonEmpty.awake.length := by
        intro tried either
        rcases either with slept | went
        · rw [slept]
          show left.asleep.length + 1 + left.awake.length ≤ before.nonEmpty.asleep.length + _ ∧
            left.awake.length < _
          rw [blocked, fewer]
          omega
        · rw [went]
          show left.asleep.length + left.awake.length ≤ before.nonEmpty.asleep.length + _ ∧ _
          rw [blocked, fewer]
          omega
      obtain ⟨most, less⟩ := size (ite_eq_or_eq
        ((receiver.attempt thread expired before.channel).1.isWaits = true) _ _)
      exact Nat.add_lt_add_of_le_of_lt (Nat.mul_le_mul_left _ (Nat.add_le_add_right most 1)) less
  | notifyAll thread =>
      obtain ⟨member, same⟩ := Option.ite_none_right_eq_some.mp gone
      cases same
      have fewer := List.length_erase_of_mem member
      have positive := List.length_pos_of_mem member
      have size : before.nonEmpty.notifyAll.size = before.nonEmpty.size ∧
          before.nonEmpty.notifyAll.awake.length = before.nonEmpty.size := by
        rw [Monitor.size, Monitor.notifyAll, List.length_append, Monitor.size]
        exact ⟨Nat.zero_add _, rfl⟩
      obtain ⟨count, more⟩ : ∃ count, before.notifying.length = count + 1 :=
        Nat.exists_eq_add_one.mpr positive
      rw [Threads.cost, Threads.cost, fewer, size.1, size.2, more, Nat.add_sub_cancel, Nat.add_mul]
      omega
  | send => contradiction
  | tryReceive => contradiction
  | call => contradiction
  | wake => contradiction
  | cancelRead => contradiction
  | clear => contradiction
  | reset => contradiction

/-- Where no thread can go on, none is in front of the mutex or of a `notify_all`. -/
theorem quiet_of_stuck (stuck : ∀ action : Action Thread Value, action.goesOn = true →
    state.step action = none) : state.notifying = [] ∧ state.nonEmpty.awake = [] := by
  constructor
  · by_contra coming
    obtain ⟨thread, rest, more⟩ := List.exists_cons_of_ne_nil coming
    have none := stuck (.notifyAll thread) rfl
    simp [Threads.step, Threads.go, Action.caller, more] at none
  · by_contra coming
    obtain ⟨⟨thread, receiver⟩, rest, more⟩ := List.exists_cons_of_ne_nil coming
    have none := stuck (.attempt thread false) rfl
    simp [Threads.step, Threads.go, Action.caller, Monitor.leave, Pool.take, more] at none

/-- No wake-up is lost. In whatever state a run has come to, and however the threads in the member functions
go on from there: they take a bounded number of steps, a receiver stays blocked behind the last
`notify_all` only if there is no cancellation and a receiver awake for each value, and once none of them
can go on, only if the queue is empty. -/
theorem receivers_served (run : (threads Thread Value).Run {} history state)
    {actions : List (Action Thread Value)} (going : ∀ action ∈ actions, action.goesOn = true)
    (executed : (threads Thread Value).execute state actions = some (events, final)) :
    actions.length ≤ state.cost ∧
      (final.notifying = [] → final.nonEmpty.asleep ≠ [] → final.channel.cancel = false ∧
        final.channel.fifo.length ≤ final.nonEmpty.awake.length) ∧
      ((∀ action : Action Thread Value, action.goesOn = true → final.step action = none) →
        final.nonEmpty.asleep ≠ [] → final.channel.cancel = false ∧ final.channel.fifo = []) := by
  have served : Served final := by
    apply (run.execute actions executed).invariant fun _ (state : Threads Thread Value) => Served state
    · exact ⟨fun _ => .inr rfl, fun _ => Monitor.covers_none⟩
    · intro history before action seen after served stepped
      exact served_step served stepped
  have waiting : final.notifying = [] → final.nonEmpty.asleep ≠ [] → final.channel.cancel = false ∧
      final.channel.fifo.length ≤ final.nonEmpty.awake.length := by
    intro quiet blocked
    refine ⟨?_, served.covered quiet blocked⟩
    by_contra pending
    rw [Bool.not_eq_false] at pending
    exact (served.canceled pending).elim (fun coming => coming quiet) blocked
  refine ⟨?_, waiting, ?_⟩
  · exact Nat.le_of_add_right_le (StepSystem.execute_cost cost_step going executed)
  · intro stuck blocked
    obtain ⟨quiet, none⟩ := quiet_of_stuck stuck
    obtain ⟨uncanceled, most⟩ := waiting quiet blocked
    rw [none] at most
    exact ⟨uncanceled, List.length_eq_zero_iff.mp (Nat.le_zero.mp most)⟩

/-- Two receivers are blocked. The one that is woken for a value meets a cancellation first, and the other
one takes the value. -/
def canceledActions : List (Action Nat Nat) :=
  [.call 0 .receive, .attempt 0 false, .call 1 .receive, .attempt 1 false, .cancelRead 2,
    .send 3 10 (some 0)]

/-- The other receiver is woken by the `notify_all`. -/
def servedActions : List (Action Nat Nat) := [.attempt 0 false, .notifyAll 2, .attempt 1 false]

theorem receivers_served_canceled :
    ∃ history state, (threads Nat Nat).Run {} history state ∧
      ∃ events final, (threads Nat Nat).execute state servedActions = some (events, final) ∧
        receivedValues (sections events) = [10] ∧ 3 ≤ state.cost := by
  have executed : (((threads Nat Nat).execute {} canceledActions).bind fun ran =>
      ((threads Nat Nat).execute ran.2 servedActions).map fun more =>
        receivedValues (sections more.1)) = some [10] := rfl
  simp only [Option.bind_eq_some_iff, Option.map_eq_some_iff] at executed
  obtain ⟨⟨history, state⟩, ran, ⟨events, final⟩, goes, received⟩ := executed
  have run := StepSystem.run_of_execute canceledActions ran
  have going : ∀ action ∈ servedActions, action.goesOn = true := by decide
  exact ⟨history, state, run, events, final, goes, received, (receivers_served run going goes).1⟩

end Steps

end MartCommon.Mt.Channel
