import MartCommon.Library.BoundedWrites
import MartCommon.Library.CountedLoop
import Mathlib.Logic.Function.Basic

namespace MartCommon.Library

/-- The blocks of memory that are allocated, with their cells. Names of blocks are not used again. -/
structure Blocks (Cell : Type*) where
  cells : Nat → Option (List Cell)
  next : Nat
  fresh : ∀ block, next ≤ block → cells block = none

namespace Blocks

open BoundedWrites

variable {Cell : Type*}

def empty : Blocks Cell := ⟨fun _ => none, 0, fun _ _ => rfl⟩

variable (blocks : Blocks Cell)

/-- The numbers of cells of the allocated blocks. -/
def counts (block : Nat) : Option Nat := (blocks.cells block).map List.length

/-- The block with the next name is allocated with these cells. -/
def allocate (cells : List Cell) : Blocks Cell where
  cells := Function.update blocks.cells blocks.next (some cells)
  next := blocks.next + 1
  fresh block behind := by
    rw [Function.update_of_ne (by omega), blocks.fresh block (by omega)]

def deallocate (block : Nat) : Blocks Cell where
  cells := Function.update blocks.cells block none
  next := blocks.next
  fresh other behind := by
    by_cases same : other = block
    · rw [same, Function.update_self]
    · rw [Function.update_of_ne same, blocks.fresh other behind]

/-- The cells of an allocated block are replaced. -/
def replace (block : Nat) (cells : List Cell) : Blocks Cell where
  cells := Function.update blocks.cells block ((blocks.cells block).map fun _ => cells)
  next := blocks.next
  fresh other behind := by
    by_cases same : other = block
    · rw [← same, Function.update_self, blocks.fresh other behind, Option.map_none]
    · rw [Function.update_of_ne same, blocks.fresh other behind]

/-- The first cells behind a pointer, which may be null where there are none. There is no result outside
of the block. -/
def read (pointer : Option Nat) (count : Nat) : Option (List Cell) :=
  if count = 0 then some []
  else
    (pointer.bind blocks.cells).bind fun cells =>
      if count ≤ cells.length then some (cells.take count) else none

/-- Writes behind a pointer, from an index on. -/
def write (pointer : Option Nat) (start : Nat) (written : List Cell) : Option (Blocks Cell) :=
  if written = [] then some blocks
  else
    pointer.bind fun block =>
      (blocks.cells block).bind fun cells =>
        (storeAll written (cells, start)).map fun final => blocks.replace block final.1

/-- The cell behind a pointer at an index. There is no result outside of the block. -/
def get (pointer : Option Nat) (index : Nat) : Option Cell :=
  (pointer.bind blocks.cells).bind fun cells => cells[index]?

/-- A write behind a pointer at an index. There is no result outside of the block. -/
def set (pointer : Option Nat) (index : Nat) (cell : Cell) : Option (Blocks Cell) :=
  pointer.bind fun block =>
    (blocks.cells block).bind fun cells =>
      if index < cells.length then some (blocks.replace block (cells.set index cell)) else none

/-- The first cells behind a pointer are copied to another one, one after the other. -/
def copy (source target : Option Nat) (count : Nat) : Option (Blocks Cell) :=
  CountedLoop.loop 0 count
    (fun index blocks => (blocks.get source index).bind (blocks.set target index)) blocks

variable {blocks} {block count : Nat} {cells : List Cell}

@[simp] theorem counts_empty : (empty : Blocks Cell).counts = fun _ => none := rfl

theorem counts_eq_some : blocks.counts block = some count ↔
    ∃ cells, blocks.cells block = some cells ∧ cells.length = count :=
  Option.map_eq_some_iff

theorem counts_next : blocks.counts blocks.next = none := by
  rw [counts, blocks.fresh _ (Nat.le_refl _), Option.map_none]

theorem counts_allocate :
    (blocks.allocate cells).counts = Function.update blocks.counts blocks.next (some cells.length) :=
  Function.comp_update (Option.map List.length) blocks.cells blocks.next (some cells)

theorem counts_deallocate :
    (blocks.deallocate block).counts = Function.update blocks.counts block none :=
  Function.comp_update (Option.map List.length) blocks.cells block none

theorem counts_replace (there : blocks.counts block = some count) :
    (blocks.replace block cells).counts =
      Function.update blocks.counts block (some cells.length) := by
  obtain ⟨old, found, -⟩ := counts_eq_some.mp there
  have counts : (blocks.replace block cells).counts = Function.update blocks.counts block
      (((blocks.cells block).map fun _ => cells).map List.length) :=
    Function.comp_update (Option.map List.length) blocks.cells block _
  rw [counts, found]
  rfl

theorem cells_allocate_next : (blocks.allocate cells).cells blocks.next = some cells :=
  Function.update_self ..

/-- An allocated block is none of those before. -/
theorem cells_allocate_of_some {old : List Cell} (found : blocks.cells block = some old) :
    (blocks.allocate cells).cells block = some old := by
  have apart : block ≠ blocks.next := by
    rintro rfl
    rw [blocks.fresh _ le_rfl] at found
    contradiction
  rw [← found]
  exact Function.update_of_ne apart _ _

theorem cells_deallocate_of_ne {other : Nat} (apart : other ≠ block) :
    (blocks.deallocate block).cells other = blocks.cells other :=
  Function.update_of_ne apart _ _

theorem cells_replace_self {old : List Cell} (found : blocks.cells block = some old) :
    (blocks.replace block cells).cells block = some cells := by
  refine (Function.update_self ..).trans ?_
  rw [found, Option.map_some]

theorem cells_replace_of_ne {other : Nat} (apart : other ≠ block) :
    (blocks.replace block cells).cells other = blocks.cells other :=
  Function.update_of_ne apart _ _

theorem replace_replace (first : List Cell) :
    (blocks.replace block first).replace block cells = blocks.replace block cells := by
  simp only [replace, mk.injEq, and_true]
  rw [Function.update_self, Function.update_idem, Option.map_map]
  rfl

theorem replace_self (found : blocks.cells block = some cells) : blocks.replace block cells = blocks := by
  have same : (blocks.cells block).map (fun _ => cells) = blocks.cells block := by
    rw [found, Option.map_some]
  simp only [replace, same, Function.update_eq_self]

theorem set_eq (found : blocks.cells block = some cells) {index : Nat} (inside : index < cells.length)
    (cell : Cell) :
    blocks.set (some block) index cell = some (blocks.replace block (cells.set index cell)) := by
  rw [set, Option.bind_some, found, Option.bind_some, if_pos inside]

/-- Writing the next cell goes one cell further. -/
theorem set_take_append_drop {old : List Cell} {index : Nat} (inside : index < cells.length)
    (within : index < old.length) :
    (cells.take index ++ old.drop index).set index cells[index] =
      cells.take (index + 1) ++ old.drop (index + 1) := by
  have begins : (cells.take index).length = index := List.length_take_of_le (by omega)
  rw [List.set_append_right _ _ (by omega), begins, Nat.sub_self, List.drop_eq_getElem_cons within,
    List.set_cons_zero, List.take_succ_eq_append_getElem inside, List.append_assoc]
  rfl

/-- A copy replaces the first cells of the target, which may be the source. -/
theorem copy_eq {source target : Nat} {old : List Cell} (found : blocks.cells source = some cells)
    (there : blocks.cells target = some old) (inside : count ≤ cells.length)
    (within : count ≤ old.length) :
    blocks.copy (some source) (some target) count =
      some (blocks.replace target (cells.take count ++ old.drop count)) := by
  apply CountedLoop.loop_follows
    (fun index => blocks.replace target (cells.take index ++ old.drop index)) (Nat.zero_le count)
  · exact replace_self there
  · rfl
  · intro index _ before
    have inCells : index < cells.length := by omega
    have inOld : index < old.length := by omega
    -- The copied cells are the same where the source is the target.
    have still : (blocks.replace target (cells.take index ++ old.drop index)).cells source = some cells := by
      by_cases same : source = target
      · subst same
        obtain rfl := Option.some.inj (found.symm.trans there)
        rw [List.take_append_drop, cells_replace_self found]
      · rw [cells_replace_of_ne same, found]
    have long : index < (cells.take index ++ old.drop index).length := by
      rw [List.length_append, List.length_take, List.length_drop]
      omega
    rw [get, Option.bind_some, still, Option.bind_some, List.getElem?_eq_getElem inCells, Option.bind_some,
      set_eq (cells_replace_self there) long, replace_replace, set_take_append_drop inCells inOld]

theorem read_eq (found : blocks.cells block = some cells) (count : Nat) (inside : count ≤ cells.length) :
    blocks.read (some block) count = some (cells.take count) := by
  unfold read
  split
  · rename_i nothing
    rw [nothing, List.take_zero]
  · rw [Option.bind_some, found, Option.bind_some, if_pos inside]

/-- Writes inside a block replace the cells in a row and nothing else. -/
theorem write_eq (found : blocks.cells block = some cells) {start : Nat} {written : List Cell}
    (inside : start + written.length ≤ cells.length) :
    ∃ after, blocks.write (some block) start written = some after ∧ after.counts = blocks.counts ∧
      (∀ other, other ≠ block → after.cells other = blocks.cells other) ∧
        after.cells block =
          some (cells.take start ++ written ++ cells.drop (start + written.length)) := by
  by_cases nothing : written = []
  · refine ⟨blocks, if_pos nothing, rfl, fun _ _ => rfl, ?_⟩
    rw [nothing, List.length_nil, Nat.add_zero, List.append_nil, List.take_append_drop, found]
  · have there : blocks.counts block = some cells.length := counts_eq_some.mpr ⟨cells, found, rfl⟩
    have same : written.length = ((cells.drop start).take written.length).length := by
      rw [List.length_take, List.length_drop]
      omega
    have begins : (cells.take start).length = start := List.length_take_of_le (by omega)
    have stored := storeAll_fits written (cells.take start) (cells.drop (start + written.length))
      ((cells.drop start).take written.length) same
    rw [begins, List.append_assoc (cells.take start), ← List.drop_drop, List.take_append_drop,
      List.take_append_drop, List.drop_drop] at stored
    have length := (storeAll_length stored).1
    refine ⟨blocks.replace block
      (cells.take start ++ written ++ cells.drop (start + written.length)), ?_, ?_, ?_, ?_⟩
    · rw [write, if_neg nothing, Option.bind_some, found, Option.bind_some, stored, Option.map_some]
    · rw [counts_replace there, length, ← there, Function.update_eq_self]
    · exact fun other apart => Function.update_of_ne apart _ _
    · exact (Function.update_self ..).trans (by rw [found]; rfl)

end Blocks

end MartCommon.Library
