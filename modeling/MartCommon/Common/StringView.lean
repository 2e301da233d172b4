import MartCommon.Library.Decimal
import MartCommon.Library.IntType

namespace MartCommon.Common

open Library

/-- `StringView::split( char at )`. The position that `find` returns lies inside, so that neither
`substr` throws. -/
def split (str : Text) (separator : UInt8) : Text × Text :=
  match str.findIdx? (· == separator) with
  | none => (str, [])
  | some pos => (str.take pos, (str.drop (pos + 1)).take (str.length - pos - 1))

/-- `to_integral_unsafe<T>`. Each operation is done in the promoted type and its result is converted
back to `T`. -/
def toIntegralUnsafe (type : IntType) (str : Text) : Int :=
  str.foldl (fun value c =>
    let scaled := type.promoted.convert (value * 10)
    let added := type.promoted.convert (scaled + c.toNat)
    type.convert (type.promoted.convert (added - 48))) 0

/-- A string without the separator comes back with an empty second part. -/
theorem split_of_notMem {str : Text} {separator : UInt8} (absent : separator ∉ str) :
    split str separator = (str, []) := by
  have missing : str.findIdx? (· == separator) = none := by
    rw [List.findIdx?_eq_none_iff]
    intro char member
    rw [beq_eq_false_iff_ne]
    rintro rfl
    exact absent member
  rw [split, missing]

/-- The split is at the first separator, which belongs to neither part. -/
theorem split_append {front back : Text} {separator : UInt8} (first : separator ∉ front) :
    split (front ++ separator :: back) separator = (front, back) := by
  have found : (front ++ separator :: back).findIdx? (· == separator) = some front.length := by
    have missing : front.findIdx? (· == separator) = none := by
      rw [List.findIdx?_eq_none_iff]
      intro char member
      rw [beq_eq_false_iff_ne]
      rintro rfl
      exact first member
    rw [List.findIdx?_append, missing, List.findIdx?_cons]
    simp
  rw [split, found]
  simp [List.take_append, List.drop_append]

/-- On digits, an unsigned type of the rank of `int` or above holds the decimal value modulo its
range. -/
theorem toIntegralUnsafe_digits {type : IntType} (unsigned : type.signed = false)
    (wide : IntType.int.bits ≤ type.bits) {str : Text}
    (digits : ∀ char ∈ str, Decimal.isDigit char = true) :
    toIntegralUnsafe type str = (Decimal.value str : Int) % 2 ^ type.bits := by
  have same : type.promoted = type := by
    rw [IntType.promoted, if_neg (by omega)]
  induction str using List.reverseRecOn with
  | nil => simp [toIntegralUnsafe]
  | append_singleton front last ih =>
      have prior := ih fun char member => digits char (by simp [member])
      have ascii : (last.toNat : Int) = Decimal.digitValue last + 48 := by
        have digit := digits last (by simp)
        simp only [Decimal.isDigit, Bool.and_eq_true, decide_eq_true_eq,
          UInt8.le_iff_toNat_le] at digit
        have low : 48 ≤ last.toNat := digit.1
        unfold Decimal.digitValue
        omega
      rw [Decimal.value_append_singleton]
      simp only [toIntegralUnsafe, List.foldl_append, List.foldl_cons, List.foldl_nil] at prior ⊢
      rw [prior, same]
      simp only [IntType.convert_unsigned unsigned, ascii, Int.emod_emod, Int.emod_add_emod,
        Int.emod_sub_emod]
      push_cast
      rw [← Int.add_assoc, Int.add_sub_cancel, Int.add_emod, Int.mul_emod, Int.emod_emod,
        ← Int.mul_emod, ← Int.add_emod]

/-- Few digits do not reach the end of the range of the type. -/
theorem toIntegralUnsafe_short {type : IntType} (unsigned : type.signed = false)
    (wide : IntType.int.bits ≤ type.bits) {count : Nat} (fits : 10 ^ count < 2 ^ type.bits)
    {str : Text} (short : str.length ≤ count)
    (digits : ∀ char ∈ str, Decimal.isDigit char = true) :
    toIntegralUnsafe type str = Decimal.value str := by
  have bound : Decimal.value str < 10 ^ count :=
    Nat.lt_of_lt_of_le (Decimal.value_lt digits) (Nat.pow_le_pow_right (by omega) short)
  rw [toIntegralUnsafe_digits unsigned wide digits]
  apply Int.emod_eq_of_lt
  · omega
  · exact_mod_cast Nat.lt_trans bound fits

end MartCommon.Common
