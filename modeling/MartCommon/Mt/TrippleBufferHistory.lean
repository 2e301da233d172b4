import MartCommon.Mt.TrippleBuffer

namespace MartCommon.Mt.TrippleBuffer

open Library

variable {Field Word : Type*}

/-- The indices name three different slots. The buffer slot holds the newest commit exactly while
its flag is set, and the read slot holds the record that the mailbox shows. -/
structure Linked (state : State Field Word) (box : Mailbox.State Field Word) : Prop where
  slots : [state.buffer.readIdx.idx, state.buffer.writeIdx.idx, state.buffer.bufferIdx.idx].Perm
    [0, 1, 2]
  within : box.taken ≤ box.posted.length
  flagged : state.buffer.bufferIdx.newData = true ↔ box.taken < box.posted.length
  newest : state.buffer.bufferIdx.newData = true →
    box.posted.getLast? = some (state.buffer.data state.buffer.bufferIdx.idx)
  shown : box.shown = state.buffer.getReadBuffer
  pending : state.consumer ≠ .outside → state.buffer.bufferIdx.newData = true
  outdated : state.consumer = .marked → state.buffer.readIdx.newData = false
  published : state.producer = .marked → state.buffer.writeIdx.newData = true

theorem linked_initial (init : Field → Word) :
    Linked (State.initial init) (Mailbox.State.initial init) where
  slots := .refl _
  within := Nat.le_refl _
  flagged := by simp [State.initial, ofInit, Mailbox.State.initial]
  newest := by simp [State.initial, ofInit]
  shown := rfl
  pending := by simp [State.initial]
  outdated := by simp [State.initial]
  published := by simp [State.initial]

/-- The three slots are pairwise different. -/
theorem Linked.distinct {state : State Field Word} {box : Mailbox.State Field Word}
    (linked : Linked state box) :
    state.buffer.readIdx.idx ≠ state.buffer.writeIdx.idx ∧
      state.buffer.readIdx.idx ≠ state.buffer.bufferIdx.idx ∧
      state.buffer.writeIdx.idx ≠ state.buffer.bufferIdx.idx := by
  have nodup := linked.slots.nodup_iff.mpr (by decide)
  simpa [and_assoc] using nodup

variable [DecidableEq Field]

/-- A word write touches neither the read slot nor the buffer slot. -/
theorem Linked.writeWord {state : State Field Word} {box : Mailbox.State Field Word}
    (linked : Linked state box) (field : Field) (word : Word) :
    Linked { state with buffer := state.buffer.writeWord field word } box where
  slots := linked.slots
  within := linked.within
  flagged := linked.flagged
  newest := by
    intro flag
    have separate := linked.distinct.2.2.symm
    simpa [TrippleBuffer.writeWord, separate] using linked.newest flag
  shown := by
    have separate := linked.distinct.1
    simpa [TrippleBuffer.writeWord, getReadBuffer, separate] using linked.shown
  pending := linked.pending
  outdated := linked.outdated
  published := linked.published

omit [DecidableEq Field] in
/-- The exchange of a commit posts the record of the write slot. -/
theorem Linked.exchangeWrite {state : State Field Word} {box : Mailbox.State Field Word}
    (linked : Linked state box) (marked : state.producer = .marked) :
    Linked { state with buffer := state.buffer.exchangeWrite, producer := .outside }
      { box with posted := box.posted ++ [state.buffer.getWriteBuffer] } where
  slots := ((List.Perm.swap _ _ _).cons _).trans linked.slots
  within := by
    have := linked.within
    simp only [List.length_append, List.length_singleton]
    omega
  flagged := by
    have := linked.within
    simp only [TrippleBuffer.exchangeWrite, linked.published marked, List.length_append,
      List.length_singleton, true_iff]
    omega
  newest := by simp [TrippleBuffer.exchangeWrite, getWriteBuffer]
  shown := linked.shown
  pending := fun _ => linked.published marked
  outdated := linked.outdated
  published := by simp

omit [DecidableEq Field] in
/-- The exchange of a fetch takes the newest record, also when a commit came after the load. -/
theorem Linked.exchangeRead {state : State Field Word} {box : Mailbox.State Field Word}
    (linked : Linked state box) (marked : state.consumer = .marked) :
    box.taken < box.posted.length ∧
      box.posted.getLast? = some state.buffer.exchangeRead.getReadBuffer ∧
      Linked { state with buffer := state.buffer.exchangeRead, consumer := .outside }
        { box with
          taken := box.posted.length, shown := state.buffer.exchangeRead.getReadBuffer } := by
  have flag : state.buffer.bufferIdx.newData = true := linked.pending (by simp [marked])
  refine ⟨linked.flagged.mp flag, linked.newest flag, ?_⟩
  exact {
    slots := (List.reverse_perm [state.buffer.readIdx.idx, state.buffer.writeIdx.idx,
      state.buffer.bufferIdx.idx]).trans linked.slots
    within := Nat.le_refl _
    flagged := by simp [TrippleBuffer.exchangeRead, linked.outdated marked]
    newest := by simp [TrippleBuffer.exchangeRead, linked.outdated marked]
    shown := rfl
    pending := by simp
    outdated := by simp
    published := linked.published }

/-- The interleaved steps of both threads refine the mailbox. -/
def refinement (Field Word : Type*) [DecidableEq Field] :
    StepSystem.Refinement (system Field Word) (Mailbox.system Field Word) where
  relation := Linked
  visible := id
  simulate := by
    intro before event after action box linked stepped
    cases action with
    | writeWord field word =>
        simp only [system, step, Option.ite_none_right_eq_some, Option.some.injEq,
          Prod.mk.injEq] at stepped
        obtain ⟨_, rfl, rfl⟩ := stepped
        exact linked.writeWord field word
    | commitMark =>
        simp only [system, step, Option.ite_none_right_eq_some, Option.some.injEq,
          Prod.mk.injEq] at stepped
        obtain ⟨_, rfl, rfl⟩ := stepped
        exact { linked with published := fun _ => rfl }
    | commitExchange =>
        simp only [system, step, Option.ite_none_right_eq_some, Option.some.injEq,
          Prod.mk.injEq] at stepped
        obtain ⟨marked, rfl, rfl⟩ := stepped
        exact ⟨.commit _, _, rfl, linked.exchangeWrite marked⟩
    | fetchLoad =>
        simp only [system, step] at stepped
        split at stepped
        · split at stepped
          · rename_i outside flag
            simp only [Option.some.injEq, Prod.mk.injEq] at stepped
            obtain ⟨rfl, rfl⟩ := stepped
            exact { linked with pending := fun _ => flag, outdated := by simp }
          · rename_i outside flag
            simp only [Option.some.injEq, Prod.mk.injEq] at stepped
            obtain ⟨rfl, rfl⟩ := stepped
            have taken : box.taken = box.posted.length := by
              have := linked.within
              have := linked.flagged.not.mp flag
              omega
            exact ⟨.refuse, box, by simp [Mailbox.system, Mailbox.step, taken], linked⟩
        · contradiction
    | fetchMark =>
        simp only [system, step, Option.ite_none_right_eq_some, Option.some.injEq,
          Prod.mk.injEq] at stepped
        obtain ⟨loaded, rfl, rfl⟩ := stepped
        exact { linked with
          pending := fun _ => linked.pending (by simp [loaded])
          outdated := fun _ => rfl }
    | fetchExchange =>
        simp only [system, step, Option.ite_none_right_eq_some, Option.some.injEq,
          Prod.mk.injEq] at stepped
        obtain ⟨marked, rfl, rfl⟩ := stepped
        obtain ⟨unfetched, last, linked'⟩ := linked.exchangeRead marked
        exact ⟨.fetch, _, by simp [Mailbox.system, Mailbox.step, unfetched, last], linked'⟩
    | readWord field =>
        simp only [system, step, Option.ite_none_right_eq_some, Option.some.injEq,
          Prod.mk.injEq] at stepped
        obtain ⟨_, rfl, rfl⟩ := stepped
        refine ⟨.look field, box, ?_, linked⟩
        simp [Mailbox.system, Mailbox.step, linked.shown]

/-- A reachable state is linked to a mailbox whose records describe the observed history. -/
theorem run_linked (init : Field → Word) {history : List (Option (Mailbox.Event Field Word))}
    {state : State Field Word} (run : (system Field Word).Run (State.initial init) history state) :
    ∃ box, Linked state box ∧ Mailbox.Records init history.reduceOption box := by
  obtain ⟨box, reached, linked⟩ := (refinement Field Word).run (linked_initial init) run
  exact ⟨box, linked, Mailbox.run_records init reached⟩

/-- A record after the words that the producer writes, whatever the consumer does meanwhile. -/
def written (record : Field → Word) : List (Action Field Word) → Field → Word
  | [] => record
  | .writeWord field word :: rest => written (Function.update record field word) rest
  | _ :: rest => written record rest

/-- Up to its exchange nobody but the producer changes the write slot. -/
theorem written_step {before after : State Field Word} {action : Action Field Word}
    {event : Option (Mailbox.Event Field Word)} (earlier : action ≠ .commitExchange)
    (stepped : step before action = some (event, after)) :
    after.buffer.getWriteBuffer = written before.buffer.getWriteBuffer [action] := by
  cases action with
  | writeWord field word =>
      simp only [step, Option.ite_none_right_eq_some, Option.some.injEq, Prod.mk.injEq] at stepped
      obtain ⟨_, _, rfl⟩ := stepped
      exact Function.update_self ..
  | commitExchange => exact absurd rfl earlier
  | fetchLoad =>
      simp only [step] at stepped
      split at stepped
      · split at stepped <;> cases stepped <;> rfl
      · contradiction
  | commitMark | fetchMark | fetchExchange | readWord field =>
      simp only [step, Option.ite_none_right_eq_some, Option.some.injEq, Prod.mk.injEq] at stepped
      obtain ⟨_, _, rfl⟩ := stepped
      rfl

/-- The words that a commit publishes are the ones written last. -/
theorem execute_written {state final : State Field Word} {actions : List (Action Field Word)}
    {events : List (Option (Mailbox.Event Field Word))} (earlier : .commitExchange ∉ actions)
    (executed : (system Field Word).execute state actions = some (events, final)) :
    final.buffer.getWriteBuffer = written state.buffer.getWriteBuffer actions := by
  induction actions generalizing state events with
  | nil =>
      obtain ⟨-, rfl⟩ := StepSystem.execute_nil.mp executed
      rfl
  | cons action rest ih =>
      obtain ⟨event, middle, later, stepped, continued, -⟩ := StepSystem.execute_cons_iff.mp executed
      obtain ⟨here, others⟩ := List.ne_and_not_mem_of_not_mem_cons earlier
      rw [ih others continued, written_step (Ne.symm here) stepped]
      cases action <;> rfl

/-- Every interleaving keeps the three slots apart. A commit publishes the words that the producer wrote
last, whatever the consumer does meanwhile. Each successful fetch obtains the newest commit in full,
successive fetches obtain strictly later commits, and a fetch is refused only after the newest commit was
fetched. -/
theorem fetchUpdate_latest_commit (init : Field → Word)
    {history : List (Option (Mailbox.Event Field Word))} {state : State Field Word}
    (run : (system Field Word).Run (State.initial init) history state) :
    [state.buffer.readIdx.idx, state.buffer.writeIdx.idx, state.buffer.bufferIdx.idx].Perm
        [0, 1, 2] ∧
      state.buffer.readIdx.idx ≠ state.buffer.writeIdx.idx ∧
      (∀ event after, step state .fetchExchange = some (event, after) →
        (Mailbox.commits history.reduceOption).getLast? = some after.buffer.getReadBuffer ∧
        event = some (.fetched after.buffer.getReadBuffer)) ∧
      (∀ after, step state .fetchLoad = some (some .refused, after) →
        (Mailbox.commits history.reduceOption).length =
          Mailbox.lastFetched history.reduceOption) ∧
      (∀ field event after, step state (.readWord field) = some (event, after) →
        event = some (.saw field (Mailbox.lastShown init history.reduceOption field))) ∧
      (∀ actions events final event after, .commitExchange ∉ actions →
        (system Field Word).execute state actions = some (events, final) →
        step final .commitExchange = some (event, after) →
          event = some (.committed (written state.buffer.getWriteBuffer actions))) ∧
      ((Mailbox.fetches 0 history.reduceOption).map Prod.fst).Pairwise (· < ·) ∧
      ∀ number value, (number, value) ∈ Mailbox.fetches 0 history.reduceOption →
        0 < number ∧ (Mailbox.commits history.reduceOption)[number - 1]? = some value := by
  obtain ⟨box, linked, records⟩ := run_linked init run
  refine ⟨linked.slots, linked.distinct.1, ?_, ?_, ?_, ?_, records.ordered, ?_⟩
  · intro event after stepped
    simp only [step, Option.ite_none_right_eq_some, Option.some.injEq, Prod.mk.injEq] at stepped
    obtain ⟨marked, rfl, rfl⟩ := stepped
    exact ⟨records.posted ▸ (linked.exchangeRead marked).2.1, rfl⟩
  · intro after stepped
    simp only [step] at stepped
    split at stepped
    · split at stepped
      · simp at stepped
      · rename_i outside flag
        have := linked.within
        have := linked.flagged.not.mp flag
        rw [← records.posted, ← records.taken]
        omega
    · contradiction
  · intro field event after stepped
    simp only [step, Option.ite_none_right_eq_some, Option.some.injEq, Prod.mk.injEq] at stepped
    obtain ⟨_, rfl, rfl⟩ := stepped
    rw [← records.shown, linked.shown]
  · intro actions events final event after earlier executed stepped
    simp only [step, Option.ite_none_right_eq_some, Option.some.injEq, Prod.mk.injEq] at stepped
    rw [← stepped.2.1, execute_written earlier executed]
  · intro number value member
    obtain ⟨positive, _, found⟩ := records.latest number value member
    exact ⟨positive, found⟩

/-- A commit lands between the load and the exchange of a fetch, which obtains that commit. -/
def racingActions : List (Action Bool Nat) :=
  [.writeWord true 1, .commitMark, .commitExchange, .fetchLoad, .writeWord true 2,
    .writeWord false 3, .commitMark, .commitExchange, .fetchMark]

theorem fetchUpdate_latest_commit_race : ∃ history state,
    (system Bool Nat).execute (State.initial fun _ => 0) racingActions = some (history, state) ∧
      ∀ event after, step state .fetchExchange = some (event, after) →
        some after.buffer.getReadBuffer = (Mailbox.commits history.reduceOption).getLast? :=
  ⟨_, _, rfl, fun event after stepped => ((fetchUpdate_latest_commit _
    (StepSystem.run_of_execute racingActions rfl)).2.2.1 event after stepped).1.symm⟩

end MartCommon.Mt.TrippleBuffer
