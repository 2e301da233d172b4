import Mathlib.Algebra.Group.Int.Defs
import Mathlib.Algebra.Group.Nat.Defs
import Mathlib.Data.Int.Basic

namespace MartCommon.Library

/-- A built-in integer type with two's complement representation. -/
structure IntType where
  bits : Nat
  signed : Bool
  deriving DecidableEq, Repr

namespace IntType

def int : IntType := ⟨32, true⟩

def uint32 : IntType := ⟨32, false⟩

def int64 : IntType := ⟨64, true⟩

/-- The conversion keeps the residue modulo `2 ^ bits` that the type represents. -/
def convert (type : IntType) (value : Int) : Int :=
  if type.signed then value.bmod (2 ^ type.bits) else value % 2 ^ type.bits

/-- Arithmetic happens in `int` when the type has fewer bits. -/
def promoted (type : IntType) : IntType := if type.bits < int.bits then int else type

def minValue (type : IntType) : Int := if type.signed then -2 ^ (type.bits - 1) else 0

def maxValue (type : IntType) : Int :=
  if type.signed then 2 ^ (type.bits - 1) - 1 else 2 ^ type.bits - 1

def InRange (type : IntType) (value : Int) : Prop := type.minValue ≤ value ∧ value ≤ type.maxValue

instance (type : IntType) (value : Int) : Decidable (type.InRange value) :=
  inferInstanceAs (Decidable (_ ∧ _))

/-- The result of an operation in the type. An unsigned type wraps around. A signed type has no result
outside its range. -/
def result (type : IntType) (value : Int) : Option Int :=
  if type.signed then if type.InRange value then some value else none
  else some (value % 2 ^ type.bits)

theorem inRange_int {value : Int} : int.InRange value ↔ -2147483648 ≤ value ∧ value ≤ 2147483647 :=
  Iff.rfl

/-- A result that the type represents is exact. -/
theorem result_of_inRange {type : IntType} {value : Int} (inRange : type.InRange value) :
    type.result value = some value := by
  cases signed : type.signed with
  | true => rw [result, if_pos signed, if_pos inRange]
  | false =>
      simp only [InRange, minValue, maxValue, signed, Bool.false_eq_true, if_false] at inRange
      rw [result, if_neg (by simp [signed]), Int.emod_eq_of_lt inRange.1 (by omega)]

/-- A signed type has a result where it represents the value, and no other one. -/
theorem result_eq_some_iff {type : IntType} {value result : Int} (signed : type.signed = true) :
    type.result value = some result ↔ type.InRange value ∧ value = result := by
  rw [IntType.result, if_pos signed, Option.ite_none_right_eq_some, Option.some.injEq]

theorem result_overflow {type : IntType} {value : Int} (signed : type.signed = true)
    (outside : ¬type.InRange value) : type.result value = none := by
  rw [result, if_pos signed, if_neg outside]

/-- A signed type represents what a narrower one does. -/
theorem InRange.widen {type wider : IntType} {value : Int} (inRange : type.InRange value)
    (signed : type.signed = true) (signed' : wider.signed = true) (le : type.bits ≤ wider.bits) :
    wider.InRange value := by
  have more : (2 : Int) ^ (type.bits - 1) ≤ 2 ^ (wider.bits - 1) := by
    exact_mod_cast Nat.pow_le_pow_right (by decide) (Nat.sub_le_sub_right le 1)
  simp only [InRange, minValue, maxValue, signed, signed', if_true] at *
  omega

/-- The result of an operation, where every type refuses what it does not represent. -/
def exact (type : IntType) (value : Int) : Option Int :=
  if type.InRange value then some value else none

theorem exact_of_inRange {type : IntType} {value : Int} (inRange : type.InRange value) :
    type.exact value = some value :=
  if_pos inRange

/-- A conversion keeps the values that the type represents. -/
theorem convert_of_inRange {type : IntType} {value : Int} (positive : 0 < type.bits)
    (inRange : type.InRange value) : type.convert value = value := by
  cases signed : type.signed with
  | true =>
      simp only [InRange, minValue, maxValue, signed, if_true] at inRange
      have double : (2 : Int) ^ type.bits = 2 * 2 ^ (type.bits - 1) := by
        rw [← Int.pow_succ', Nat.sub_add_cancel positive]
      rw [convert, if_pos signed]
      refine Int.bmod_eq_of_le_mul_two ?_ ?_ <;> push_cast <;> omega
  | false =>
      simp only [InRange, minValue, maxValue, signed, Bool.false_eq_true, if_false] at inRange
      rw [convert, if_neg (by simp [signed]), Int.emod_eq_of_lt inRange.1 (by omega)]

/-- A conversion ends in the range of the type. -/
theorem convert_inRange {type : IntType} (positive : 0 < type.bits) (value : Int) :
    type.InRange (type.convert value) := by
  cases signed : type.signed with
  | true =>
      have whole : (2 : Nat) ^ type.bits = 2 * 2 ^ (type.bits - 1) := by
        rw [← Nat.pow_succ', Nat.succ_eq_add_one, Nat.sub_add_cancel positive]
      have half : (0 : Nat) < 2 ^ (type.bits - 1) := Nat.two_pow_pos _
      have low := Int.le_bmod (x := value) (m := 2 ^ type.bits) (by omega)
      have high := Int.bmod_lt (x := value) (m := 2 ^ type.bits) (by omega)
      simp only [InRange, minValue, maxValue, convert, signed, if_true]
      rw [whole] at low high ⊢
      push_cast at low high ⊢
      omega
  | false =>
      have modulus : (0 : Int) < 2 ^ type.bits := Int.pow_pos (by decide)
      have low := Int.emod_nonneg value (Int.ne_of_gt modulus)
      have high := Int.emod_lt_of_pos value modulus
      simp only [InRange, minValue, maxValue, convert, signed, Bool.false_eq_true, if_false]
      omega

/-- The conversion depends on the residue only. -/
theorem convert_congr {type : IntType} {value other : Int}
    (same : value % 2 ^ type.bits = other % 2 ^ type.bits) : type.convert value = type.convert other := by
  simp only [convert, Int.bmod_def]
  push_cast
  rw [same]

theorem convert_emod (type : IntType) (value : Int) :
    type.convert value % 2 ^ type.bits = value % 2 ^ type.bits := by
  rw [convert]
  split
  · exact_mod_cast Int.bmod_emod (x := value) (m := 2 ^ type.bits)
  · exact Int.emod_emod_of_dvd value (Int.dvd_refl _)

/-- Where an operation has a result, it is the converted value. -/
theorem convert_of_result {type : IntType} {value result : Int} (positive : 0 < type.bits)
    (computed : type.result value = some result) : type.convert value = result := by
  rw [IntType.result] at computed
  split at computed
  · obtain ⟨inRange, same⟩ := Option.ite_none_right_eq_some.mp computed
    rw [convert_of_inRange positive inRange, Option.some.inj same]
  · rename_i unsigned
    rw [convert, if_neg unsigned]
    exact Option.some.inj computed

/-- An unsigned type represents residues, so nested conversions collapse. -/
theorem convert_unsigned {type : IntType} (unsigned : type.signed = false) (value : Int) :
    type.convert value = value % 2 ^ type.bits := by
  simp [convert, unsigned]

end IntType

end MartCommon.Library
