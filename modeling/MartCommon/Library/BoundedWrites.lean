import Mathlib.Data.List.Basic

namespace MartCommon.Library.BoundedWrites

variable {Cell : Type*}

/-- A write into a block of memory. There is no result outside the block. -/
def store (cells : List Cell) (address : Int) (cell : Cell) : Option (List Cell) :=
  if 0 ≤ address ∧ address < cells.length then some (cells.set address.toNat cell) else none

/-- Writes through a pointer that moves on. They end with the block and the pointer. -/
def storeAll : List Cell → List Cell × Nat → Option (List Cell × Nat)
  | [], state => some state
  | cell :: rest, state =>
      (store state.1 state.2 cell).bind fun cells => storeAll rest (cells, state.2 + 1)

theorem store_fits (before after : List Cell) (old cell : Cell) :
    store (before ++ old :: after) before.length cell = some (before ++ cell :: after) := by
  have inside : (before.length : Int) < (before ++ old :: after).length := by
    rw [List.length_append, List.length_cons]
    omega
  rw [store, if_pos ⟨Int.natCast_nonneg _, inside⟩, Option.some.injEq]
  simp

theorem store_length {cells written : List Cell} {address : Int} {cell : Cell}
    (stored : store cells address cell = some written) : written.length = cells.length := by
  rw [store, Option.ite_none_right_eq_some, Option.some.injEq] at stored
  rw [← stored.2, List.length_set]

theorem store_inside {cells written : List Cell} {address : Int} {cell : Cell}
    (stored : store cells address cell = some written) :
    0 ≤ address ∧ address < cells.length := by
  rw [store, Option.ite_none_right_eq_some] at stored
  exact stored.1

theorem storeAll_length {cells : List Cell} {state final : List Cell × Nat}
    (stored : storeAll cells state = some final) :
    final.1.length = state.1.length ∧ final.2 = state.2 + cells.length := by
  induction cells generalizing state with
  | nil =>
      obtain rfl := Option.some.inj stored
      exact ⟨rfl, rfl⟩
  | cons cell rest ih =>
      obtain ⟨written, here, later⟩ := Option.bind_eq_some_iff.mp stored
      obtain ⟨same, moved⟩ := ih later
      refine ⟨same.trans (store_length here), ?_⟩
      rw [moved, List.length_cons]
      omega

theorem storeAll_append (first second : List Cell) (state : List Cell × Nat) :
    storeAll (first ++ second) state = (storeAll first state).bind (storeAll second) := by
  induction first generalizing state with
  | nil => rfl
  | cons cell rest ih =>
      rw [List.cons_append, storeAll, storeAll, Option.bind_assoc]
      simp only [ih]

/-- Writes with a result end inside the block. -/
theorem storeAll_inside {cells : List Cell} {state final : List Cell × Nat}
    (stored : storeAll cells state = some final) (any : cells ≠ []) :
    state.2 + cells.length ≤ state.1.length := by
  induction cells generalizing state with
  | nil => exact absurd rfl any
  | cons cell rest ih =>
      obtain ⟨written, here, later⟩ := Option.bind_eq_some_iff.mp stored
      have inside := store_inside here
      rw [List.length_cons]
      cases rest with
      | nil =>
          rw [List.length_nil]
          omega
      | cons next others =>
          have behind := ih later (List.cons_ne_nil next others)
          rw [store_length here] at behind
          omega

/-- Writes that end inside the block replace as many cells and keep the others. -/
theorem storeAll_fits (cells before after old : List Cell) (same : cells.length = old.length) :
    storeAll cells (before ++ old ++ after, before.length) =
      some (before ++ cells ++ after, (before ++ cells).length) := by
  induction cells generalizing before old with
  | nil =>
      obtain rfl := List.length_eq_zero_iff.mp same.symm
      simp [storeAll]
  | cons cell rest ih =>
      cases old with
      | nil => exact absurd same (Nat.succ_ne_zero _)
      | cons first others =>
          have next := ih (before ++ [cell]) others (Nat.succ.inj same)
          rw [List.append_assoc, List.cons_append, storeAll, store_fits, Option.bind_some]
          simpa using next

/-- Writes from the start of the block on. -/
theorem storeAll_front {cells block : List Cell} (fits : cells.length ≤ block.length) :
    storeAll cells (block, 0) = some (cells ++ block.drop cells.length, cells.length) := by
  have same : cells.length = (block.take cells.length).length := by
    rw [List.length_take_of_le fits]
  have stored := storeAll_fits cells [] (block.drop cells.length) (block.take cells.length) same
  rwa [List.nil_append, List.take_append_drop] at stored

end MartCommon.Library.BoundedWrites
