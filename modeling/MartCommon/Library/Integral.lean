import MartCommon.Library.IntType

namespace MartCommon.Library

/-- An integer type of the language has at least eight bits. -/
structure IntegerType extends IntType where
  wide : 8 ≤ bits
  deriving DecidableEq

/-- The integral types are `bool` and the integer types. -/
inductive Integral where
  | bool
  | integer (type : IntegerType)
  deriving DecidableEq

namespace Integral

def minValue : Integral → Int
  | .bool => 0
  | .integer type => type.minValue

def maxValue : Integral → Int
  | .bool => 1
  | .integer type => type.maxValue

def signed : Integral → Bool
  | .bool => false
  | .integer type => type.signed

/-- The type of the arithmetic on values of the type. -/
def promoted : Integral → IntType
  | .bool => .int
  | .integer type => type.promoted

/-- A conversion to `bool` tells whether the value is not zero. -/
def convert : Integral → Int → Int
  | .bool, value => if value = 0 then 0 else 1
  | .integer type, value => type.convert value

def InRange (type : Integral) (value : Int) : Prop := type.minValue ≤ value ∧ value ≤ type.maxValue

instance (type : Integral) (value : Int) : Decidable (type.InRange value) :=
  inferInstanceAs (Decidable (_ ∧ _))

/-- A value of an integral type. -/
abbrev Value (type : Integral) := {value : Int // type.InRange value}

end Integral

namespace IntegerType

variable (type : IntegerType)

def uint8 : IntegerType := ⟨⟨8, false⟩, by decide⟩

theorem wide_int : 8 ≤ IntType.int.bits := by decide

def int : IntegerType := ⟨IntType.int, wide_int⟩

/-- A value of an integer type. -/
abbrev Value := {value : Int // type.InRange value}

/-- The signed type of the same width. -/
def makeSigned : IntegerType := ⟨⟨type.bits, true⟩, type.wide⟩

theorem positive : 0 < type.bits := Nat.lt_of_lt_of_le (by decide) type.wide

theorem two_pow_le {low high : Nat} (le : low ≤ high) : (2 : Int) ^ low ≤ 2 ^ high := by
  exact_mod_cast Nat.pow_le_pow_right (by decide) le

/-- Every integer type represents what seven bits represent. -/
theorem le_maxValue : 127 ≤ type.maxValue := by
  have wide := type.wide
  have seven : (2 : Int) ^ 7 ≤ 2 ^ (type.bits - 1) := two_pow_le (by omega)
  have more : (2 : Int) ^ (type.bits - 1) ≤ 2 ^ type.bits := two_pow_le (by omega)
  rw [IntType.maxValue]
  split <;> omega

theorem minValue_nonpos : type.minValue ≤ 0 := by
  have positive : (0 : Int) < 2 ^ (type.bits - 1) := Int.pow_pos (by decide)
  rw [IntType.minValue]
  split <;> omega

/-- A signed type has one negative value more than positive ones. -/
theorem minValue_of_signed (signed : type.signed = true) : type.minValue = -(type.maxValue + 1) := by
  rw [IntType.minValue, IntType.maxValue, if_pos signed, if_pos signed]
  omega

theorem minValue_of_unsigned (unsigned : type.signed = false) : type.minValue = 0 := by
  rw [IntType.minValue, if_neg (by simp [unsigned])]

/-- The promoted type represents every value of the type. -/
theorem promoted_inRange {value : Int} (inRange : type.InRange value) : type.promoted.InRange value := by
  by_cases narrow : type.bits < IntType.int.bits
  · rw [IntType.promoted, if_pos narrow]
    have narrow : type.bits < 32 := narrow
    have below : (2 : Int) ^ type.bits ≤ 2 ^ 31 := two_pow_le (by omega)
    have half : (2 : Int) ^ (type.bits - 1) ≤ 2 ^ 31 := two_pow_le (by omega)
    obtain ⟨low, high⟩ := inRange
    rw [IntType.minValue] at low
    rw [IntType.maxValue] at high
    rw [IntType.inRange_int]
    split at high <;> rename_i kind
    · rw [if_pos kind] at low
      omega
    · rw [if_neg kind] at low
      omega
  · rw [IntType.promoted, if_neg narrow]
    exact inRange

theorem positive_promoted : 0 < type.promoted.bits := by
  rw [IntType.promoted]
  split
  · decide
  · exact type.positive

/-- Unsigned arithmetic is that of the type itself. -/
theorem promoted_of_unsigned (unsigned : type.promoted.signed = false) :
    type.signed = false ∧ IntType.int.bits ≤ type.bits := by
  rw [IntType.promoted] at unsigned
  split at unsigned
  · contradiction
  · exact ⟨unsigned, Nat.not_lt.mp ‹_›⟩

theorem bits_le_promoted : type.bits ≤ type.promoted.bits := by
  rw [IntType.promoted]
  split
  · exact Nat.le_of_lt ‹_›
  · exact Nat.le_refl _

/-- Where arithmetic is signed, it does not depend on the signedness of the type. -/
theorem promoted_makeSigned (signed : type.promoted.signed = true) :
    type.makeSigned.promoted = type.promoted := by
  by_cases narrow : type.bits < IntType.int.bits
  · rw [IntType.promoted, IntType.promoted, if_pos narrow, if_pos (show type.makeSigned.bits < _ from narrow)]
  · rw [IntType.promoted, if_neg narrow] at signed
    have same : type.makeSigned = type := by
      rw [makeSigned, ← signed]
    rw [same]

/-- The result of arithmetic on values of a type, stored in a type. -/
def stored (target : IntegerType) (value : Int) : Option target.Value :=
  (type.promoted.result value).map fun result =>
    ⟨target.convert result, IntType.convert_inRange target.positive result⟩

/-- A stored result has the residue of the exact one. It is there where the arithmetic is unsigned, or does
not overflow. -/
theorem stored_eq {target : IntegerType} {value stored : Int} (bits : type.bits = target.bits)
    (inRange : target.InRange stored)
    (residue : value % 2 ^ target.bits = stored % 2 ^ target.bits)
    (defined : type.promoted.signed = true → type.promoted.InRange value) :
    type.stored target value = some ⟨stored, inRange⟩ := by
  have kept (result : Int) (same : result % 2 ^ target.bits = value % 2 ^ target.bits) :
      target.convert result = stored := by
    rw [IntType.convert_congr (same.trans residue)]
    exact IntType.convert_of_inRange target.positive inRange
  rw [IntegerType.stored]
  cases signed : type.promoted.signed with
  | true =>
      rw [IntType.result_of_inRange (defined signed), Option.map_some, Option.some.injEq, Subtype.mk.injEq]
      exact kept value rfl
  | false =>
      obtain ⟨-, wide⟩ := type.promoted_of_unsigned signed
      have same : type.promoted = type.toIntType := if_neg (Nat.not_lt.mpr wide)
      rw [same] at signed ⊢
      rw [IntType.result, if_neg (by rw [signed]; exact Bool.false_ne_true), Option.map_some,
        Option.some.injEq, Subtype.mk.injEq, bits]
      exact kept _ (Int.emod_emod_of_dvd value (Int.dvd_refl _))

/-- Numbers from zero to the maximum are values of the type. -/
theorem inRange_of_le {value : Int} (positive : 0 ≤ value) (small : value ≤ type.maxValue) :
    type.InRange value :=
  ⟨Int.le_trans type.minValue_nonpos positive, small⟩

theorem zero_inRange : type.InRange 0 :=
  type.inRange_of_le (Int.le_refl 0) (Int.le_trans (by decide) type.le_maxValue)

end IntegerType

namespace Integral

variable (type : Integral) {value : Int}

theorem minValue_nonpos : type.minValue ≤ 0 := by
  cases type with
  | bool => exact Int.le_refl 0
  | integer type => exact type.minValue_nonpos

theorem minValue_of_unsigned (unsigned : type.signed = false) : type.minValue = 0 := by
  cases type with
  | bool => rfl
  | integer type => exact type.minValue_of_unsigned unsigned

/-- The arithmetic on a type represents the numbers from zero to its maximum. -/
theorem promoted_inRange (positive : 0 ≤ value) (small : value ≤ type.maxValue) :
    type.promoted.InRange value := by
  cases type with
  | bool =>
      have small : value ≤ 1 := small
      rw [promoted, IntType.inRange_int]
      omega
  | integer type => exact type.promoted_inRange (type.inRange_of_le positive small)

theorem le_promoted_maxValue : type.maxValue ≤ type.promoted.maxValue := by
  have positive : 0 ≤ type.maxValue := by
    cases type with
    | bool => exact Int.one_nonneg
    | integer type => exact Int.le_trans (by decide) type.le_maxValue
  exact (type.promoted_inRange positive (Int.le_refl _)).2

theorem le_maxValue_promoted : 127 ≤ type.promoted.maxValue := by
  cases type with
  | bool => decide
  | integer type => exact Int.le_trans type.le_maxValue (Integral.integer type).le_promoted_maxValue

/-- The least value of a type follows from its greatest one. -/
theorem minValue_eq : type.minValue = if type.signed then -(type.maxValue + 1) else 0 := by
  cases kind : type.signed with
  | true =>
      cases type with
      | bool => contradiction
      | integer type => exact type.minValue_of_signed kind
  | false => exact type.minValue_of_unsigned kind

theorem convert_inRange (value : Int) : type.InRange (type.convert value) := by
  cases type with
  | bool =>
      rw [convert]
      split <;> decide
  | integer type => exact IntType.convert_inRange type.positive value

theorem convert_of_inRange (inRange : type.InRange value) : type.convert value = value := by
  cases type with
  | bool =>
      have low : 0 ≤ value := inRange.1
      have high : value ≤ 1 := inRange.2
      rw [convert]
      split <;> omega
  | integer type => exact IntType.convert_of_inRange type.positive inRange

theorem convert_of_le (positive : 0 ≤ value) (small : value ≤ type.maxValue) :
    type.convert value = value := by
  cases type with
  | bool =>
      have small : value ≤ 1 := small
      rw [convert]
      split <;> omega
  | integer type => exact IntType.convert_of_inRange type.positive (type.inRange_of_le positive small)

end Integral

end MartCommon.Library
