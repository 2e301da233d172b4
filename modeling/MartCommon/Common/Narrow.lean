import MartCommon.Library.Integral

namespace MartCommon.Common

open Library

/-- `narrow_cast<T>( u )` is a `static_cast`. -/
def narrowCast (T : Integral) {U : Integral} (u : U.Value) : T.Value :=
  ⟨T.convert u, T.convert_inRange u⟩

/-- `narrowing_error`. It has no members. -/
structure NarrowingError where
  deriving DecidableEq

/-- `is_same_signedness<T, U>` -/
def isSameSignedness (T U : Integral) : Bool := T.signed == U.signed

/-- `sign_check<T, U>::check( t, u )` -/
def signCheck {T U : Integral} (t : T.Value) (u : U.Value) : Except NarrowingError Unit :=
  if isSameSignedness T U then .ok ()
  else if decide (t.val < 0) ≠ decide (u.val < 0) then .error {}
  else .ok ()

/-- `narrow<T>( u )` -/
def narrow (T : Integral) {U : Integral} (u : U.Value) : Except NarrowingError T.Value := do
  let t : T.Value := narrowCast T u
  signCheck t u
  if narrowCast U t ≠ u then throw {}
  return t

variable {T U : Integral}

/-- The sign check lets values of one signedness pass, and values that are both negative or both not. -/
theorem signCheck_eq (t : T.Value) (u : U.Value) :
    signCheck t u = if T.signed = U.signed ∨ (t.val < 0 ↔ u.val < 0) then .ok () else .error {} := by
  by_cases same : T.signed = U.signed
  · simp [signCheck, isSameSignedness, same]
  · simp [signCheck, isSameSignedness, same, apply_ite]

/-- A value that comes back from a type, with its sign where both signs differ in kind, is a value of this
type. -/
theorem inRange_of_returns (u : U.Value) (returns : narrowCast U (narrowCast T u) = u)
    (signs : T.signed = U.signed ∨ ((narrowCast T u).val < 0 ↔ u.val < 0)) : T.InRange u.val := by
  by_contra outside
  have moved : (narrowCast T u).val ≠ u.val := by
    intro same
    exact outside (same ▸ (narrowCast T u).property)
  -- The way back would keep a value that it finds in its range.
  have beyond : ¬ U.InRange (narrowCast T u).val := by
    intro inside
    have back := U.convert_of_inRange inside
    exact moved (back.symm.trans (congrArg Subtype.val returns))
  obtain ⟨low, high⟩ := u.property
  obtain ⟨low', high'⟩ := (narrowCast T u).property
  have least := T.minValue_eq
  have least' := U.minValue_eq
  simp only [Integral.InRange, not_and, Int.not_le] at outside beyond
  cases kind : T.signed <;> cases kind' : U.signed <;>
    simp only [kind, kind', Bool.false_eq_true, if_true, if_false, reduceCtorEq, false_or, true_or]
      at least least' signs <;> omega

/-- `narrow` returns the value itself where the type has it, and refuses all others. -/
theorem narrow_eq (T : Integral) (u : U.Value) :
    narrow T u = if fits : T.InRange u.val then .ok ⟨u.val, fits⟩ else .error {} := by
  by_cases fits : T.InRange u.val
  · have kept : narrowCast T u = ⟨u.val, fits⟩ := Subtype.ext (T.convert_of_inRange fits)
    have back : narrowCast U (⟨u.val, fits⟩ : T.Value) = u :=
      Subtype.ext (U.convert_of_inRange u.property)
    rw [dif_pos fits, narrow, kept, signCheck_eq, if_pos (.inr Iff.rfl), back]
    simp only [ne_eq, not_true_eq_false, if_false]
    rfl
  · rw [dif_neg fits, narrow, signCheck_eq]
    split
    · rename_i signs
      have lost : narrowCast U (narrowCast T u) ≠ u :=
        fun returns => fits (inRange_of_returns u returns signs)
      simp only [if_pos lost]
      rfl
    · rfl

/-- For all integral types, `narrow` returns the value of the type that equals its argument if there is
one, and throws if and only if there is none. -/
theorem narrow_exact (T : Integral) (u : U.Value) :
    (∀ t : T.Value, narrow T u = .ok t ↔ t.val = u.val) ∧
      (narrow T u = .error {} ↔ ∀ t : T.Value, t.val ≠ u.val) := by
  rw [narrow_eq]
  by_cases fits : T.InRange u.val
  · rw [dif_pos fits]
    refine ⟨fun t => ?_, iff_of_false nofun fun none => none ⟨u.val, fits⟩ rfl⟩
    rw [Except.ok.injEq, Subtype.ext_iff]
    exact eq_comm
  · rw [dif_neg fits]
    have none : ∀ t : T.Value, t.val ≠ u.val := fun t same => fits (same ▸ t.property)
    exact ⟨fun t => iff_of_false nofun (none t), iff_of_true rfl none⟩

end MartCommon.Common
