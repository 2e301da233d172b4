import Mathlib.Data.List.Count
import Mathlib.Logic.Function.Basic

namespace MartCommon.Library.Lifetime

/-- What is done with an object that can live in a place. -/
inductive Access (Place : Type*) where
  | constructed (place : Place)
  | assigned (place : Place)
  | movedFrom (place : Place)
  | destroyed (place : Place)
  deriving DecidableEq

variable {Place : Type*} [DecidableEq Place]

/-- The places where objects are alive after an access. A construction needs a place without a living
object, and the other accesses need one with a living object. -/
def advance (alive : Place → Bool) : Access Place → Option (Place → Bool)
  | .constructed place => if alive place then none else some (Function.update alive place true)
  | .assigned place | .movedFrom place => if alive place then some alive else none
  | .destroyed place => if alive place then some (Function.update alive place false) else none

/-- The places where objects are alive after a history, if its accesses are lawful. -/
def follow (alive : Place → Bool) (history : List (Access Place)) : Option (Place → Bool) :=
  history.foldlM advance alive

variable {alive next final : Place → Bool} {place : Place}

@[simp] theorem follow_nil : follow alive [] = some alive := rfl

theorem follow_cons (access : Access Place) (history : List (Access Place)) :
    follow alive (access :: history) = (advance alive access).bind fun next => follow next history :=
  List.foldlM_cons

theorem follow_append (first second : List (Access Place)) :
    follow alive (first ++ second) = (follow alive first).bind fun next => follow next second :=
  List.foldlM_append

theorem advance_constructed (free : alive place = false) :
    advance alive (.constructed place) = some (Function.update alive place true) := by
  rw [advance, free, if_neg Bool.false_ne_true]

theorem advance_assigned (living : alive place = true) :
    advance alive (.assigned place) = some alive := by
  rw [advance, if_pos living]

theorem advance_movedFrom (living : alive place = true) :
    advance alive (.movedFrom place) = some alive := by
  rw [advance, if_pos living]

theorem advance_destroyed (living : alive place = true) :
    advance alive (.destroyed place) = some (Function.update alive place false) := by
  rw [advance, if_pos living]

/-- Nothing but a construction is done where no object lives. -/
theorem advance_assigned_free (free : alive place = false) : advance alive (.assigned place) = none := by
  rw [advance, free, if_neg Bool.false_ne_true]

/-- The histories of several events follow one another. -/
theorem foldlM_follow {Event : Type*} (accesses : Event → List (Access Place)) (events : List Event) :
    events.foldlM (fun alive event => follow alive (accesses event)) alive =
      follow alive (events.flatMap accesses) := by
  induction events generalizing alive with
  | nil => rfl
  | cons event rest ih =>
      rw [List.foldlM_cons, List.flatMap_cons, follow_append]
      exact bind_congr fun next => ih

/-- One access changes the counts as it changes whether an object is alive. -/
theorem advance_counts (place : Place) {access : Access Place} (moved : advance alive access = some next) :
    [access].count (.constructed place) + (alive place).toNat =
      [access].count (.destroyed place) + (next place).toNat := by
  cases access with
  | constructed other =>
      rw [advance, Option.ite_none_left_eq_some, Option.some.injEq] at moved
      obtain ⟨free, rfl⟩ := moved
      by_cases same : other = place
      · subst same
        simp [Bool.eq_false_iff.mpr free]
      · simp [same, Function.update_of_ne (Ne.symm same)]
  | assigned other | movedFrom other =>
      rw [advance, Option.ite_none_right_eq_some, Option.some.injEq] at moved
      obtain ⟨-, rfl⟩ := moved
      simp
  | destroyed other =>
      rw [advance, Option.ite_none_right_eq_some, Option.some.injEq] at moved
      obtain ⟨living, rfl⟩ := moved
      by_cases same : other = place
      · subst same
        simp [living]
      · simp [same, Function.update_of_ne (Ne.symm same)]

/-- In a lawful history, the objects of a place are destroyed as often as they are constructed, except
for the one that is still alive. -/
theorem follow_counts (place : Place) {history : List (Access Place)}
    (followed : follow alive history = some final) :
    history.count (.constructed place) + (alive place).toNat =
      history.count (.destroyed place) + (final place).toNat := by
  induction history generalizing alive with
  | nil =>
      obtain rfl := Option.some.inj followed
      rfl
  | cons access rest ih =>
      rw [follow_cons] at followed
      obtain ⟨next, moved, others⟩ := Option.bind_eq_some_iff.mp followed
      have here := advance_counts place moved
      have later := ih others
      rw [← List.singleton_append, List.count_append, List.count_append]
      omega

end MartCommon.Library.Lifetime
