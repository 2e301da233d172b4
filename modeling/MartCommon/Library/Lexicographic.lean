import Mathlib.Order.Defs.LinearOrder

namespace MartCommon.Library.Lexicographic

variable {Char : Type*} [Ord Char]

/-- The first difference among the first elements decides. -/
def comparePrefix : Nat → List Char → List Char → Ordering
  | count + 1, first :: left, second :: right =>
      (compare first second).then (comparePrefix count left right)
  | _, _, _ => .eq

/-- The common length is compared first. Where it shows no difference, the shorter list comes first. -/
def compareLists (left right : List Char) : Ordering :=
  (comparePrefix (min left.length right.length) left right).then
    (compare left.length right.length)

/-- The comparison in two parts is the lexicographic one. -/
theorem compareLists_eq (left right : List Char) : compareLists left right = compare left right := by
  induction left generalizing right with
  | nil =>
      cases right with
      | nil => rfl
      | cons second right => simp [compareLists, comparePrefix, Nat.compare_eq_lt]
  | cons first left ih =>
      cases right with
      | nil => simp [compareLists, comparePrefix, Nat.compare_eq_gt]
      | cons second right =>
          have lengths : compare (left.length + 1) (right.length + 1) =
              compare left.length right.length := by
            simp only [Nat.compare_eq_ite_lt, Nat.add_lt_add_iff_right]
          rw [List.compare_cons_cons, ← ih right]
          simp only [compareLists, List.length_cons, Nat.succ_min_succ, comparePrefix, lengths,
            Ordering.then_assoc]

variable [LT Char] [LE Char] [Std.LawfulOrderOrd Char] [Std.LawfulOrderLT Char]
  [Std.LawfulEqOrd Char]

/-- A list is less than another one when the comparison says so. -/
theorem compare_eq_lt_iff (left right : List Char) : compare left right = .lt ↔ left < right := by
  induction left generalizing right with
  | nil => cases right <;> simp
  | cons first left ih =>
      cases right with
      | nil => simp
      | cons second right =>
          rw [List.compare_cons_cons, List.cons_lt_cons_iff, Ordering.then_eq_lt, ih right,
            Std.compare_eq_lt, Std.LawfulEqOrd.compare_eq_iff_eq]

end MartCommon.Library.Lexicographic
