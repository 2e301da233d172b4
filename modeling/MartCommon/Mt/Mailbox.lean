import MartCommon.Library.StepSystem
import Mathlib.Data.List.Basic

namespace MartCommon.Mt.Mailbox

open Library

/-- A mailbox keeps every committed record and shows the reader the one it fetched last. -/
structure State (Field Word : Type*) where
  posted : List (Field → Word)
  taken : Nat
  shown : Field → Word

/-- An observer sees commits, the two answers of a fetch, and the words that the reader reads. -/
inductive Event (Field Word : Type*) where
  | committed (value : Field → Word)
  | fetched (value : Field → Word)
  | refused
  | saw (field : Field) (word : Word)

inductive Action (Field Word : Type*) where
  | commit (value : Field → Word)
  | fetch
  | refuse
  | look (field : Field)

variable {Field Word : Type*}

/-- A new mailbox is empty and shows the initial record. -/
def State.initial (init : Field → Word) : State Field Word := ⟨[], 0, init⟩

/-- A fetch takes the newest record, and it is refused exactly when that one was taken before. -/
def step (box : State Field Word) :
    Action Field Word → Option (Event Field Word × State Field Word)
  | .commit value => some (.committed value, { box with posted := box.posted ++ [value] })
  | .fetch =>
      if box.taken < box.posted.length then
        box.posted.getLast?.map fun value =>
          (.fetched value, { box with taken := box.posted.length, shown := value })
      else none
  | .refuse => if box.taken = box.posted.length then some (.refused, box) else none
  | .look field => some (.saw field (box.shown field), box)

def system (Field Word : Type*) :
    StepSystem (State Field Word) (Action Field Word) (Event Field Word) := ⟨step⟩

/-- The committed records of a history, oldest first. -/
def commits : List (Event Field Word) → List (Field → Word)
  | [] => []
  | .committed value :: rest => value :: commits rest
  | _ :: rest => commits rest

/-- Each successful fetch with the number of commits before it and the record it obtained. -/
def fetches (before : Nat) : List (Event Field Word) → List (Nat × (Field → Word))
  | [] => []
  | .committed _ :: rest => fetches (before + 1) rest
  | .fetched value :: rest => (before, value) :: fetches before rest
  | _ :: rest => fetches before rest

@[simp] theorem commits_append (first second : List (Event Field Word)) :
    commits (first ++ second) = commits first ++ commits second := by
  induction first with
  | nil => rfl
  | cons event rest ih => cases event <;> simp [commits, ih]

@[simp] theorem fetches_append (before : Nat) (first second : List (Event Field Word)) :
    fetches before (first ++ second) =
      fetches before first ++ fetches (before + (commits first).length) second := by
  induction first generalizing before with
  | nil => simp [commits, fetches]
  | cons event rest ih => cases event <;> simp [commits, fetches, ih, Nat.add_assoc, Nat.add_comm 1]

/-- The number of the last fetched commit, or zero before the first successful fetch. -/
def lastFetched (history : List (Event Field Word)) : Nat :=
  ((fetches 0 history).map Prod.fst).getLast?.getD 0

/-- The record of the last successful fetch, or the initial record before it. -/
def lastShown (init : Field → Word) (history : List (Event Field Word)) : Field → Word :=
  ((fetches 0 history).map Prod.snd).getLast?.getD init

/-- The mailbox state is a function of the history, and the fetches are in commit order. -/
structure Records (init : Field → Word) (history : List (Event Field Word))
    (box : State Field Word) : Prop where
  posted : box.posted = commits history
  taken : box.taken = lastFetched history
  shown : box.shown = lastShown init history
  within : box.taken ≤ box.posted.length
  latest : ∀ number value, (number, value) ∈ fetches 0 history →
    0 < number ∧ number ≤ box.taken ∧ (commits history)[number - 1]? = some value
  ordered : ((fetches 0 history).map Prod.fst).Pairwise (· < ·)

theorem records_initial (init : Field → Word) : Records init [] (State.initial init) where
  posted := rfl
  taken := rfl
  shown := rfl
  within := Nat.le_refl _
  latest := by simp [fetches]
  ordered := by simp [fetches]

/-- A new commit keeps every earlier fetch. -/
theorem Records.commit {init : Field → Word} {history : List (Event Field Word)}
    {box : State Field Word} (records : Records init history box) (value : Field → Word) :
    Records init (history ++ [.committed value]) { box with posted := box.posted ++ [value] } where
  posted := by simp [commits, records.posted]
  taken := by simp [lastFetched, fetches, records.taken]
  shown := by simp [lastShown, fetches, records.shown]
  within := by
    have := records.within
    simp only [List.length_append, List.length_singleton]
    omega
  latest := by
    intro number value member
    simp only [fetches_append, fetches, List.append_nil] at member
    obtain ⟨positive, bounded, found⟩ := records.latest number value member
    have := records.within
    rw [records.posted] at this
    refine ⟨positive, bounded, ?_⟩
    rw [commits_append, List.getElem?_append_left (by omega)]
    exact found
  ordered := by simpa [fetches] using records.ordered

/-- A fetch of an unfetched commit takes a larger number than every earlier fetch. -/
theorem Records.fetch {init : Field → Word} {history : List (Event Field Word)}
    {box : State Field Word} (records : Records init history box) {value : Field → Word}
    (unfetched : box.taken < box.posted.length) (last : box.posted.getLast? = some value) :
    Records init (history ++ [.fetched value])
      { box with taken := box.posted.length, shown := value } where
  posted := by simp [commits, records.posted]
  taken := by simp [lastFetched, fetches, records.posted]
  shown := by simp [lastShown, fetches]
  within := Nat.le_refl _
  latest := by
    have length : box.posted.length = (commits history).length := by rw [records.posted]
    have newest : (commits history)[(commits history).length - 1]? = some value := by
      rw [← List.getLast?_eq_getElem?, ← records.posted, last]
    intro number found member
    simp only [fetches_append, fetches, Nat.zero_add, List.mem_append, List.mem_singleton,
      Prod.mk.injEq] at member
    simp only [commits_append, commits, List.append_nil]
    rcases member with old | ⟨rfl, rfl⟩
    · obtain ⟨positive, bounded, found⟩ := records.latest _ _ old
      exact ⟨positive, by omega, found⟩
    · exact ⟨by omega, by omega, newest⟩
  ordered := by
    simp only [fetches_append, fetches, List.map_append, List.map_cons, List.map_nil]
    refine List.pairwise_append.mpr ⟨records.ordered, List.pairwise_singleton _ _, ?_⟩
    intro earlier old number new
    obtain ⟨⟨number', value'⟩, member, rfl⟩ := List.mem_map.mp old
    have bounded := (records.latest number' value' member).2.1
    simp only [List.mem_singleton] at new
    have length : box.posted.length = (commits history).length := by rw [records.posted]
    simp only
    omega

/-- An event that is neither a commit nor a successful fetch changes no record. -/
theorem Records.other {init : Field → Word} {history : List (Event Field Word)}
    {box : State Field Word} (records : Records init history box) {event : Event Field Word}
    (uncommitted : commits [event] = []) (unfetched : ∀ before, fetches before [event] = []) :
    Records init (history ++ [event]) box where
  posted := by simp [uncommitted, records.posted]
  taken := by simp [lastFetched, unfetched, records.taken]
  shown := by simp [lastShown, unfetched, records.shown]
  within := records.within
  latest := by simpa [uncommitted, unfetched] using records.latest
  ordered := by simpa [unfetched] using records.ordered

/-- Every mailbox run keeps the records. -/
theorem run_records (init : Field → Word) {history : List (Event Field Word)}
    {box : State Field Word}
    (run : (system Field Word).Run (State.initial init) history box) :
    Records init history box := by
  apply run.invariant (Records init) (records_initial init)
  intro history before action event after records stepped
  cases action with
  | commit value =>
      simp only [system, step, Option.some.injEq, Prod.mk.injEq] at stepped
      obtain ⟨rfl, rfl⟩ := stepped
      exact records.commit value
  | fetch =>
      simp only [system, step, Option.ite_none_right_eq_some, Option.map_eq_some_iff,
        Prod.mk.injEq] at stepped
      obtain ⟨unfetched, value, last, rfl, rfl⟩ := stepped
      exact records.fetch unfetched last
  | refuse =>
      simp only [system, step, Option.ite_none_right_eq_some, Option.some.injEq,
        Prod.mk.injEq] at stepped
      obtain ⟨_, rfl, rfl⟩ := stepped
      exact records.other rfl fun _ => rfl
  | look field =>
      simp only [system, step, Option.some.injEq, Prod.mk.injEq] at stepped
      obtain ⟨rfl, rfl⟩ := stepped
      exact records.other rfl fun _ => rfl

end MartCommon.Mt.Mailbox
