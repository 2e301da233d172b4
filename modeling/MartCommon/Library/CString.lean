import MartCommon.Library.BoundedWrites
import MartCommon.Library.Decimal
import Mathlib.Data.List.DropRight
import Mathlib.Data.List.TakeWhile

namespace MartCommon.Library.CString

open BoundedWrites

/-- The characters in front of the terminator. -/
def characters (cells : Text) : Text := cells.takeWhile (· != 0)

/-- `std::strlen`. There is no result where no terminator is in the block. -/
def strlen (cells : Text) : Option Nat := if 0 ∈ cells then some (characters cells).length else none

/-- `std::strncat( cells, source, count )` writes a terminator behind the characters that it appends. -/
def strncat (cells source : Text) (count : Nat) : Option Text :=
  (strlen cells).bind fun length =>
    (storeAll ((characters source).take count ++ [0]) (cells, length)).map Prod.fst

/-- A text in a field of a fixed size that is filled up with zeros. -/
def padded (size : Nat) (text : Text) : Text := text ++ List.replicate (size - text.length) 0

/-- A text without the zeros at its end. -/
def trimmed (text : Text) : Text := text.rdropWhile (· == 0)

variable {cells text rest source : Text} {count : Nat}

theorem ne_zero_of_zeroFree (zeroFree : 0 ∉ text) : ∀ char ∈ text, (char != 0) = true := by
  intro char member
  rw [bne_iff_ne]
  rintro rfl
  exact zeroFree member

theorem zero_notMem_characters (cells : Text) : 0 ∉ characters cells := by
  intro member
  exact absurd (List.mem_takeWhile_imp member) (by decide)

/-- A text without zeros is read as a whole. -/
theorem characters_eq (zeroFree : 0 ∉ text) : characters text = text :=
  List.takeWhile_eq_self_iff.mpr (ne_zero_of_zeroFree zeroFree)

/-- What is behind a terminator does not matter. -/
theorem characters_append_zero (text rest : Text) : characters (text ++ 0 :: rest) = characters text := by
  induction text with
  | nil => rfl
  | cons char others ih =>
      have same : ((others ++ 0 :: rest).takeWhile fun char => char != 0) =
          others.takeWhile fun char => char != 0 := ih
      rw [List.cons_append, characters, characters, List.takeWhile_cons, List.takeWhile_cons, same]

/-- A text without zeros is read up to the terminator behind it. -/
theorem characters_append (zeroFree : 0 ∉ text) : characters (text ++ 0 :: rest) = text :=
  (characters_append_zero text rest).trans (characters_eq zeroFree)

/-- The characters are as many cells of the block as `strlen` says. -/
theorem take_strlen {length : Nat} (read : strlen cells = some length) :
    cells.take length = characters cells := by
  rw [strlen, Option.ite_none_right_eq_some, Option.some.injEq] at read
  rw [← read.2]
  exact (List.prefix_iff_eq_take.mp (List.takeWhile_prefix _)).symm

/-- A block with a terminator is its characters, the first terminator and a rest. -/
theorem exists_rest (terminated : 0 ∈ cells) : ∃ rest, cells = characters cells ++ 0 :: rest := by
  obtain ⟨front, rest, rfl, zeroFree⟩ := List.eq_append_cons_of_mem terminated
  exact ⟨rest, by rw [characters_append zeroFree]⟩

theorem strlen_append (zeroFree : 0 ∉ text) : strlen (text ++ 0 :: rest) = some text.length := by
  rw [strlen, if_pos (by simp), characters_append zeroFree]

/-- Where the block has the room, the characters move the terminator back and what is behind stays. -/
theorem strncat_append (zeroFree : 0 ∉ text) {added : Text} (adds : (characters source).take count = added)
    (room : added.length ≤ rest.length) :
    strncat (text ++ 0 :: rest) source count = some (text ++ added ++ 0 :: rest.drop added.length) := by
  have same : (added ++ [0]).length = (0 :: rest.take added.length).length := by
    rw [List.length_append, List.length_singleton, List.length_cons, List.length_take]
    omega
  have stored := storeAll_fits (added ++ [0]) text (rest.drop added.length)
    (0 :: rest.take added.length) same
  have whole : text ++ 0 :: rest.take added.length ++ rest.drop added.length = text ++ 0 :: rest := by
    rw [List.append_assoc, List.cons_append, List.take_append_drop]
  rw [whole] at stored
  rw [strncat, strlen_append zeroFree, Option.bind_some, adds, stored, Option.map_some]
  simp

section Padding

variable {left right : Text} {size : Nat}

theorem trimmed_append_replicate (text : Text) (zeros : Nat) :
    trimmed (text ++ List.replicate zeros 0) = trimmed text := by
  induction zeros with
  | zero => rw [List.replicate_zero, List.append_nil]
  | succ zeros ih =>
      rw [List.replicate_succ', ← List.append_assoc, trimmed, List.rdropWhile_concat_pos _ _ _ rfl]
      exact ih

/-- A text is its trimmed part and zeros. -/
theorem exists_zeros (text : Text) : ∃ zeros, text = trimmed text ++ List.replicate zeros 0 := by
  induction text using List.reverseRecOn with
  | nil => exact ⟨0, rfl⟩
  | append_singleton front last ih =>
      rw [trimmed, List.rdropWhile_concat]
      split
      · rename_i zero
        obtain ⟨zeros, parts⟩ := ih
        rw [beq_iff_eq] at zero
        refine ⟨zeros + 1, ?_⟩
        rw [List.replicate_succ', ← List.append_assoc, zero]
        exact congrArg (· ++ [0]) parts
      · exact ⟨0, (List.append_nil _).symm⟩

/-- The zeros at the end of a text are lost among those of its field. -/
theorem padded_trimmed (fits : text.length ≤ size) : padded size (trimmed text) = padded size text := by
  obtain ⟨zeros, parts⟩ := exists_zeros text
  have length := congrArg List.length parts
  rw [List.length_append, List.length_replicate] at length
  have sum : zeros + (size - text.length) = size - (trimmed text).length := by omega
  rw [padded, padded, ← sum, ← List.replicate_append_replicate, ← List.append_assoc, ← parts]

theorem trimmed_eq (zeroFree : 0 ∉ text) : trimmed text = text := by
  apply List.rdropWhile_eq_self_iff.mpr
  intro nonempty zero
  rw [beq_iff_eq] at zero
  exact zeroFree (zero ▸ List.getLast_mem nonempty)

/-- Fields are equal exactly where the texts differ in zeros at their ends only. -/
theorem padded_eq_iff (leftFits : left.length ≤ size) (rightFits : right.length ≤ size) :
    padded size left = padded size right ↔ trimmed left = trimmed right := by
  constructor
  · intro same
    rw [← trimmed_append_replicate left, ← padded, same, padded, trimmed_append_replicate]
  · intro same
    rw [← padded_trimmed leftFits, same, padded_trimmed rightFits]

end Padding

end MartCommon.Library.CString
