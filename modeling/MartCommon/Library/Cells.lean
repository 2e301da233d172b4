import MartCommon.Library.CountedLoop
import Mathlib.Logic.Function.Basic

namespace MartCommon.Library

/-- Memory with a cell at each address that is allocated. -/
abbrev Cells (Address Cell : Type*) := Address → Option Cell

namespace Cells

variable {Address Cell : Type*} [DecidableEq Address]

/-- There is no result where the address is not allocated. -/
def store (cells : Cells Address Cell) (address : Address) (cell : Cell) : Option (Cells Address Cell) :=
  if (cells address).isSome then some (Function.update cells address (some cell)) else none

/-- The cells behind one address are copied behind another one, one after the other. -/
def copy (source target : Nat → Address) (count : Nat) (cells : Cells Address Cell) :
    Option (Cells Address Cell) :=
  CountedLoop.loop 0 count
    (fun index cells => (cells (source index)).bind (cells.store (target index))) cells

/-- The memory in which the first cells have been copied. -/
def copied (cells : Cells Address Cell) (source target : Nat → Address) : Nat → Cells Address Cell
  | 0 => cells
  | count + 1 => Function.update (copied cells source target count) (target count) (cells (source count))

variable {cells : Cells Address Cell} {source target : Nat → Address} {count : Nat}

/-- Only the cells of the target change. -/
theorem copied_other {address : Address} (other : ∀ index < count, address ≠ target index) :
    cells.copied source target count address = cells address := by
  induction count with
  | zero => rfl
  | succ count ih =>
      rw [copied, Function.update_of_ne (other count (Nat.lt_succ_self count))]
      exact ih fun index before => other index (Nat.lt_succ_of_lt before)

theorem copied_target (apart : Function.Injective target) {index : Nat} (before : index < count) :
    cells.copied source target count (target index) = cells (source index) := by
  induction count with
  | zero => contradiction
  | succ count ih =>
      rw [copied]
      by_cases last : index = count
      · rw [last, Function.update_self]
      · rw [Function.update_of_ne fun same => last (apart same)]
        exact ih (by omega)

/-- A copy between allocated cells that do not overlap gives the memory in which they are copied. -/
theorem copy_eq (apart : Function.Injective target)
    (readable : ∀ index < count, (cells (source index)).isSome)
    (writable : ∀ index < count, (cells (target index)).isSome)
    (disjoint : ∀ index < count, ∀ other < count, source index ≠ target other) :
    copy source target count cells = some (cells.copied source target count) := by
  apply CountedLoop.loop_follows (cells.copied source target) (Nat.zero_le count)
  · rfl
  · rfl
  · intro index _ before
    obtain ⟨cell, found⟩ := Option.isSome_iff_exists.mp (readable index before)
    have still : cells.copied source target index (source index) = some cell := by
      rw [copied_other fun other earlier => disjoint index before other (by omega), found]
    have there : (cells.copied source target index (target index)).isSome := by
      rw [copied_other fun other earlier same => by have := apart same; omega]
      exact writable index before
    rw [still, Option.bind_some, store, if_pos there, copied, found]

end Cells

end MartCommon.Library
