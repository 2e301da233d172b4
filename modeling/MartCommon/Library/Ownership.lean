import Mathlib.Data.List.Count
import Mathlib.Logic.Function.Basic

namespace MartCommon.Library.Ownership

/-- An owner acquires a resource, closes it or gives it out of its hands. -/
inductive Event (Resource : Type*) where
  | acquired (resource : Resource)
  | closed (resource : Resource)
  | released (resource : Resource)
  deriving DecidableEq

variable {Object Resource : Type*} [DecidableEq Resource]

/-- Whether the resource is held after one more event. An acquisition needs a free resource, and
the other events need a held one. -/
def advance (resource : Resource) (held : Bool) : Event Resource → Option Bool
  | .acquired other => if other = resource then (if held then none else some true) else some held
  | .closed other => if other = resource then (if held then some false else none) else some held
  | .released other => if other = resource then (if held then some false else none) else some held

/-- Whether the resource is held after a history, if its events alternate. -/
def track (resource : Resource) (held : Bool) : List (Event Resource) → Option Bool
  | [] => some held
  | event :: rest =>
      match advance resource held event with
      | none => none
      | some next => track resource next rest

theorem track_append (resource : Resource) (held : Bool) (first second : List (Event Resource)) :
    track resource held (first ++ second) =
      (track resource held first).bind fun next => track resource next second := by
  induction first generalizing held with
  | nil => rfl
  | cons event rest ih =>
      simp only [List.cons_append, track]
      cases advance resource held event with
      | none => rfl
      | some next => exact ih next

/-- One event changes the counts as it changes whether the resource is held. -/
theorem advance_counts {resource : Resource} {held next : Bool} {event : Event Resource}
    (moved : advance resource held event = some next) :
    [event].count (.acquired resource) + held.toNat =
      [event].count (.closed resource) + [event].count (.released resource) + next.toNat := by
  cases event with
  | acquired other | closed other | released other =>
      by_cases same : other = resource
      · cases held <;> simp only [advance, same, ↓reduceIte] at moved <;> cases moved
        simp [same]
      · simp only [advance, same, ↓reduceIte, Option.some.injEq] at moved
        simp [same, moved]

/-- In an alternating history, a resource is closed or released as often as it is acquired, except
for the acquisition that still holds it. -/
theorem track_counts {resource : Resource} {held final : Bool} {history : List (Event Resource)}
    (tracked : track resource held history = some final) :
    history.count (.acquired resource) + held.toNat =
      history.count (.closed resource) + history.count (.released resource) + final.toNat := by
  induction history generalizing held with
  | nil =>
      simp only [track, Option.some.injEq] at tracked
      simp [tracked]
  | cons event rest ih =>
      simp only [track] at tracked
      cases moved : advance resource held event with
      | none => simp [moved] at tracked
      | some next =>
          simp only [moved] at tracked
          have first := advance_counts moved
          have later := ih tracked
          rw [← List.singleton_append, List.count_append, List.count_append, List.count_append]
          omega

/-- A resource is closed only while an acquisition holds it. -/
theorem track_closed {resource : Resource} {final : Bool} {earlier later : List (Event Resource)}
    (tracked : track resource false (earlier ++ .closed resource :: later) = some final) :
    earlier.count (.acquired resource) =
      earlier.count (.closed resource) + earlier.count (.released resource) + 1 := by
  rw [track_append] at tracked
  cases before : track resource false earlier with
  | none => simp [before] at tracked
  | some held =>
      have counts := track_counts before
      cases held with
      | false => simp [before, track, advance] at tracked
      | true => simpa using counts

/-- Each object holds a resource or nothing. No resource has two holders, and the history of each
resource alternates and ends with whether it has a holder. -/
structure Owned (history : List (Event Resource)) (holds : Object → Option Resource) : Prop where
  unique : ∀ first second resource, holds first = some resource → holds second = some resource →
    first = second
  tracked : ∀ resource, ∃ held, track resource false history = some held ∧
    (held = true ↔ ∃ object, holds object = some resource)

theorem owned_initial :
    Owned ([] : List (Event Resource)) (fun _ => none : Object → Option Resource) where
  unique := by simp
  tracked := fun resource => ⟨false, rfl, by simp⟩

variable [DecidableEq Object]

omit [DecidableEq Resource] in
/-- Resources keep their holders apart when an object gets one that no other object holds, or none. -/
theorem unique_update {holds : Object → Option Resource} {object : Object} {value : Option Resource}
    (unique : ∀ first second resource, holds first = some resource → holds second = some resource →
      first = second)
    (alone : ∀ other resource, other ≠ object → value = some resource → holds other ≠ some resource) :
    ∀ first second resource, Function.update holds object value first = some resource →
      Function.update holds object value second = some resource → first = second := by
  intro first second resource heldFirst heldSecond
  by_cases one : first = object
  · by_cases two : second = object
    · rw [one, two]
    · rw [one, Function.update_self] at heldFirst
      rw [Function.update_of_ne two] at heldSecond
      exact absurd heldSecond (alone second resource two heldFirst)
  · rw [Function.update_of_ne one] at heldFirst
    by_cases two : second = object
    · rw [two, Function.update_self] at heldSecond
      exact absurd heldFirst (alone first resource one heldSecond)
    · rw [Function.update_of_ne two] at heldSecond
      exact unique first second resource heldFirst heldSecond

omit [DecidableEq Resource] in
/-- Resources keep their holders apart when one moves. -/
theorem unique_move {holds : Object → Option Resource}
    (unique : ∀ first second resource, holds first = some resource → holds second = some resource →
      first = second)
    (target source : Object) :
    ∀ first second resource,
      Function.update (Function.update holds source none) target (holds source) first = some resource →
      Function.update (Function.update holds source none) target (holds source) second = some resource →
        first = second := by
  have taken : ∀ other resource, other ≠ source → (none : Option Resource) = some resource →
      holds other ≠ some resource := nofun
  apply unique_update (unique_update unique taken)
  intro other resource _ moved held
  by_cases from_ : other = source
  · rw [from_, Function.update_self] at held
    contradiction
  · rw [Function.update_of_ne from_] at held
    exact from_ (unique other source resource held moved)

/-- An empty object may acquire a resource without a holder. -/
theorem Owned.acquire {history : List (Event Resource)} {holds : Object → Option Resource}
    {object : Object} {resource : Resource} (owned : Owned history holds)
    (free : ∀ other, holds other ≠ some resource) (empty : holds object = none) :
    Owned (history ++ [.acquired resource]) (Function.update holds object (some resource)) where
  unique := by
    apply unique_update owned.unique
    intro other shared _ acquired
    rw [← Option.some.inj acquired]
    exact free other
  tracked := by
    intro other
    obtain ⟨held, tracked, holder⟩ := owned.tracked other
    rw [track_append, tracked]
    by_cases same : resource = other
    · subst same
      have unheld : held = false := by
        rw [← Bool.not_eq_true, holder]
        rintro ⟨present, member⟩
        exact free present member
      refine ⟨true, by simp [track, advance, unheld], ?_⟩
      simp only [true_iff]
      exact ⟨object, by simp⟩
    · refine ⟨held, by simp [track, advance, same], holder.trans ?_⟩
      apply exists_congr
      intro present
      by_cases at_ : present = object
      · simp [at_, empty, same]
      · simp [at_]

/-- The holder of a resource closes it or gives it away, and is empty then. -/
theorem Owned.dispose {history : List (Event Resource)} {holds : Object → Option Resource}
    {object : Object} {resource : Resource} {event : Event Resource} (owned : Owned history holds)
    (held : holds object = some resource)
    (disposal : event = .closed resource ∨ event = .released resource) :
    Owned (history ++ [event]) (Function.update holds object none) where
  unique := unique_update owned.unique nofun
  tracked := by
    intro other
    obtain ⟨before, tracked, holder⟩ := owned.tracked other
    rw [track_append, tracked]
    by_cases same : resource = other
    · subst same
      have holding : before = true := holder.mpr ⟨object, held⟩
      refine ⟨false, by rcases disposal with rfl | rfl <;> simp [track, advance, holding], ?_⟩
      simp only [Bool.false_eq_true, false_iff]
      rintro ⟨present, member⟩
      by_cases at_ : present = object
      · simp [at_] at member
      · rw [Function.update_of_ne at_] at member
        exact at_ (owned.unique present object resource member held)
    · refine ⟨before, by rcases disposal with rfl | rfl <;> simp [track, advance, same],
        holder.trans ?_⟩
      apply exists_congr
      intro present
      by_cases at_ : present = object
      · simp [at_, held, same]
      · simp [at_]

/-- A resource moves to an empty object without an event. -/
theorem Owned.move {history : List (Event Resource)} {holds : Object → Option Resource}
    {target source : Object} (owned : Owned history holds) (empty : holds target = none) :
    Owned history (Function.update (Function.update holds source none) target (holds source)) where
  unique := unique_move owned.unique target source
  tracked := by
    intro resource
    obtain ⟨held, tracked, holder⟩ := owned.tracked resource
    refine ⟨held, tracked, holder.trans ⟨?_, ?_⟩⟩
    · rintro ⟨present, member⟩
      by_cases from_ : present = source
      · exact ⟨target, by rw [Function.update_self, ← from_, member]⟩
      · refine ⟨present, ?_⟩
        have away : present ≠ target := by
          rintro rfl
          simp [empty] at member
        rw [Function.update_of_ne away, Function.update_of_ne from_, member]
    · rintro ⟨present, member⟩
      by_cases at_ : present = target
      · rw [at_, Function.update_self] at member
        exact ⟨source, member⟩
      · rw [Function.update_of_ne at_] at member
        by_cases from_ : present = source
        · simp [from_] at member
        · rw [Function.update_of_ne from_] at member
          exact ⟨present, member⟩

end MartCommon.Library.Ownership
