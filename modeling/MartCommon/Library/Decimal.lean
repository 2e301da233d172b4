import Mathlib.Algebra.Group.Nat.Defs
import Mathlib.Data.Nat.Basic
import Mathlib.Data.List.Induction

namespace MartCommon.Library

/-- The bytes of a narrow string. -/
abbrev Text := List UInt8

/-- The bytes of a literal with ASCII characters only. -/
def ascii (literal : String) : Text := literal.toList.map fun char => UInt8.ofNat char.toNat

namespace Decimal

def isDigit (char : UInt8) : Bool := 48 ≤ char && char ≤ 57

/-- The number that a digit stands for. -/
def digitValue (char : UInt8) : Nat := char.toNat - 48

/-- The byte of a number below ten. -/
def digitChar (digit : Nat) : UInt8 := UInt8.ofNat (48 + digit)

/-- The positional value of a digit string, most significant digit first. -/
def value (text : Text) : Nat := text.foldl (fun number char => number * 10 + digitValue char) 0

/-- The canonical digit string of a number has no leading zero, except for zero itself. -/
def render (number : Nat) : Text :=
  (Nat.toDigits 10 number).map fun char => UInt8.ofNat char.toNat

@[simp] theorem value_nil : value [] = 0 := by
  rfl

theorem value_append_singleton (text : Text) (char : UInt8) :
    value (text ++ [char]) = value text * 10 + digitValue char := by
  rw [value, List.foldl_append]
  rfl

/-- The value when more digits follow a number. -/
def valueFrom (number : Nat) (text : Text) : Nat :=
  text.foldl (fun number char => number * 10 + digitValue char) number

@[simp] theorem valueFrom_nil (number : Nat) : valueFrom number [] = number := by
  rfl

@[simp] theorem valueFrom_cons (number : Nat) (char : UInt8) (text : Text) :
    valueFrom number (char :: text) = valueFrom (number * 10 + digitValue char) text := by
  rfl

theorem valueFrom_zero (text : Text) : valueFrom 0 text = value text := by
  rfl

/-- More digits do not make a number smaller. -/
theorem le_valueFrom (number : Nat) (text : Text) : number ≤ valueFrom number text := by
  induction text generalizing number with
  | nil => exact Nat.le_refl number
  | cons char rest ih =>
      have next := ih (number * 10 + digitValue char)
      rw [valueFrom_cons]
      omega

/-- The code of a digit lies by the number it stands for above the code of zero. -/
theorem toNat_of_isDigit {char : UInt8} (digit : isDigit char = true) :
    char.toNat = digitValue char + 48 := by
  simp only [isDigit, Bool.and_eq_true, decide_eq_true_eq, UInt8.le_iff_toNat_le] at digit
  have low : 48 ≤ char.toNat := digit.1
  rw [digitValue]
  omega

/-- Only digits lie between zero and nine above the code of zero. -/
theorem isDigit_iff_toNat {char : UInt8} : isDigit char = true ↔ 48 ≤ char.toNat ∧ char.toNat ≤ 57 := by
  simp only [isDigit, Bool.and_eq_true, decide_eq_true_eq, UInt8.le_iff_toNat_le]
  exact Iff.rfl

theorem isDigit_digitChar {digit : Nat} (small : digit < 10) : isDigit (digitChar digit) = true := by
  revert digit
  decide

theorem digitValue_digitChar {digit : Nat} (small : digit < 10) :
    digitValue (digitChar digit) = digit := by
  revert digit
  decide

/-- A digit stands for a number below ten. -/
theorem digitValue_lt {char : UInt8} (digit : isDigit char = true) : digitValue char < 10 := by
  simp only [isDigit, Bool.and_eq_true, decide_eq_true_eq, UInt8.le_iff_toNat_le] at digit
  obtain ⟨_, high⟩ := digit
  change char.toNat ≤ 57 at high
  unfold digitValue
  omega

/-- A digit string of `k` digits stays below `10 ^ k`. -/
theorem value_lt {text : Text} (digits : ∀ char ∈ text, isDigit char = true) :
    value text < 10 ^ text.length := by
  induction text using List.reverseRecOn with
  | nil => simp
  | append_singleton front last ih =>
      have small := digitValue_lt (digits last (by simp))
      have below := ih fun char member => digits char (by simp [member])
      rw [value_append_singleton, List.length_append, List.length_singleton, Nat.pow_succ]
      omega

/-- The last digit comes off the end of a canonical digit string. -/
theorem render_eq (number : Nat) :
    render number = (if number < 10 then [] else render (number / 10)) ++
      [digitChar (number % 10)] := by
  have char : ∀ digit < 10, UInt8.ofNat (Nat.digitChar digit).toNat = digitChar digit := by
    decide
  rw [render, Nat.toDigits_eq_if (by omega)]
  split
  · rename_i small
    rw [List.map_singleton, char number small, Nat.mod_eq_of_lt small]
    rfl
  · rw [List.map_append, List.map_singleton, char (number % 10) (by omega)]
    rfl

/-- A canonical digit string has the value it was made from. -/
theorem value_render (number : Nat) : value (render number) = number := by
  induction number using Nat.strong_induction_on with
  | h number ih =>
      rw [render_eq, value_append_singleton, digitValue_digitChar (by omega)]
      split
      · rw [value_nil]
        omega
      · rw [ih (number / 10) (by omega)]
        omega

/-- A canonical digit string holds digits only. -/
theorem isDigit_of_mem_render {number : Nat} {char : UInt8} (member : char ∈ render number) :
    isDigit char = true := by
  induction number using Nat.strong_induction_on with
  | h number ih =>
      rw [render_eq, List.mem_append, List.mem_singleton] at member
      rcases member with front | rfl
      · split at front
        · contradiction
        · exact ih (number / 10) (by omega) front
      · exact isDigit_digitChar (by omega)

theorem render_ne_nil (number : Nat) : render number ≠ [] := by
  rw [render_eq]
  simp

/-- The digit string of an integer, with a minus sign for a negative one. -/
def renderInt (number : Int) : Text :=
  if number < 0 then 45 :: render number.natAbs else render number.natAbs

/-- The text goes on with something that is no digit, or it ends. -/
def NoDigitFirst (text : Text) : Prop := text.head?.any isDigit = false

/-- The digits of a text are those before the first other character. -/
theorem takeWhile_digits {digits rest : Text} (all : ∀ char ∈ digits, isDigit char = true)
    (behind : NoDigitFirst rest) : (digits ++ rest).takeWhile isDigit = digits := by
  rw [List.takeWhile_append_of_pos all]
  cases rest with
  | nil => rw [List.takeWhile_nil, List.append_nil]
  | cons char rest =>
      have other : isDigit char = false := behind
      rw [List.takeWhile_cons_of_neg (by simp [other]), List.append_nil]

/-- A number below `10 ^ k` has at most `k` digits, for a positive `k`. -/
theorem length_render_le {number count : Nat} (positive : 0 < count) (small : number < 10 ^ count) :
    (render number).length ≤ count := by
  induction count generalizing number with
  | zero => contradiction
  | succ count ih =>
      rw [render_eq, List.length_append, List.length_singleton]
      split
      · simp
      · have below : number / 10 < 10 ^ count := by
          rw [Nat.pow_succ] at small
          omega
        have := ih (by
          rcases count with _ | count
          · simp at below
            omega
          · omega) below
        omega

end Decimal

end MartCommon.Library
