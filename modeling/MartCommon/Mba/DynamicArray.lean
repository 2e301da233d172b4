import MartCommon.Library.Blocks

namespace MartCommon.Mba

open Library

/-- `dynamic_array<T>` with the pointer of its `std::unique_ptr<T[]>` -/
structure DynamicArray where
  size : Nat := 0
  data : Option Nat := none
  deriving DecidableEq

namespace DynamicArray

variable {T : Type*}

/-- What a function leaves behind: the array that it has made or changed, and the memory. -/
structure Effect (T : Type*) where
  this : DynamicArray
  memory : Blocks T

section Functions

variable (memory : Blocks T)

/-- A block that a `std::unique_ptr` gives up is deallocated. -/
def reset (old : Option Nat) : Blocks T := old.elim memory memory.deallocate

/-- The number of elements that are allocated behind a pointer -/
def allocatedCells (data : Option Nat) : Nat := ((data.bind memory.cells).map List.length).getD 0

/-- `std::copy( first, last, result )` for the elements of an array -/
def copy (other : DynamicArray) (data : Option Nat) : Option (Blocks T) :=
  memory.copy other.data data other.size

/-- `dynamic_array( std::initializer_list<T> list )` -/
def ofList [Inhabited T] (list : List T) : Option (Effect T) :=
  let made := memory.allocate (List.replicate list.length default)
  (made.write (some memory.next) 0 list).map fun filled => ⟨⟨list.length, some memory.next⟩, filled⟩

/-- `dynamic_array( std::size_t size )` initializes its elements by their default values. -/
def ofSize [Inhabited T] (size : Nat) : Effect T :=
  ⟨⟨size, some memory.next⟩, memory.allocate (List.replicate size default)⟩

/-- `dynamic_array( const dynamic_array& other )` -/
def copyConstruct [Inhabited T] (other : DynamicArray) : Option (Effect T) :=
  let made := ofSize memory other.size
  (copy made.memory other made.this.data).map fun copied => ⟨made.this, copied⟩

/-- `operator=( const dynamic_array& other )` of an array, which `other` may be as well -/
def copyAssign [Inhabited T] (this other : DynamicArray) : Option (Effect T) :=
  let made : Effect T :=
    if other.size ≠ this.size then
      ⟨⟨other.size, some memory.next⟩,
        reset (memory.allocate (List.replicate other.size default)) this.data⟩
    else ⟨⟨other.size, this.data⟩, memory⟩
  (copy made.memory other made.this.data).map fun copied => ⟨made.this, copied⟩

/-- `operator[]( i ) = value` -/
def assignAt (this : DynamicArray) (i : Nat) (value : T) : Option (Effect T) :=
  (memory.set this.data i value).map fun written => ⟨this, written⟩

end Functions

/-- The block of an array has exactly its elements. -/
def Holds (memory : Blocks T) (array : DynamicArray) (elements : List T) : Prop :=
  array.size = elements.length ∧
    match array.data with
    | none => elements = []
    | some block => memory.cells block = some elements

/-- A function gives elements to an array, in its old block or in the next one, and leaves the other
blocks as they are. -/
structure Replaces (memory : Blocks T) (old : Option Nat) (effect : Effect T) (elements : List T) :
    Prop where
  holds : Holds effect.memory effect.this elements
  origin : ∀ block, effect.this.data = some block → old = some block ∨ block = memory.next
  kept : ∀ block cells, memory.cells block = some cells → old ≠ some block →
    effect.memory.cells block = some cells

section Functions

variable {memory after : Blocks T} {array other : DynamicArray} {elements old : List T}

theorem holds_empty : Holds memory {} [] := ⟨rfl, rfl⟩

/-- The elements of an array are read. -/
theorem Holds.read (holds : Holds memory array elements) :
    memory.read array.data array.size = some elements := by
  obtain ⟨size, data⟩ := array
  obtain ⟨rfl, cells⟩ := holds
  cases data with
  | none =>
      obtain rfl : elements = [] := cells
      rfl
  | some block =>
      rw [Blocks.read_eq cells _ le_rfl, List.take_length]

theorem Holds.fits (holds : Holds memory array elements) :
    array.size ≤ allocatedCells memory array.data := by
  obtain ⟨size, data⟩ := array
  obtain ⟨rfl, cells⟩ := holds
  cases data with
  | none =>
      obtain rfl : elements = [] := cells
      exact Nat.zero_le _
  | some block =>
      have found : memory.cells block = some elements := cells
      rw [allocatedCells, Option.bind_some, found]
      exact Nat.le_refl _

/-- What happens in other blocks does not matter. -/
theorem Holds.kept (holds : Holds memory array elements)
    (kept : ∀ block cells, array.data = some block → memory.cells block = some cells →
      after.cells block = some cells) : Holds after array elements := by
  obtain ⟨size, data⟩ := array
  obtain ⟨length, cells⟩ := holds
  cases data with
  | none => exact ⟨length, cells⟩
  | some block => exact ⟨length, kept block elements rfl cells⟩

/-- The block of an array is none that is not allocated yet. -/
theorem Holds.not_next (holds : Holds memory array elements) : array.data ≠ some memory.next := by
  intro data
  obtain ⟨-, cells⟩ := holds
  rw [data] at cells
  have found : memory.cells memory.next = some elements := cells
  rw [memory.fresh _ le_rfl] at found
  contradiction

theorem cells_reset {data : Option Nat} {block : Nat} (apart : data ≠ some block) :
    (reset memory data).cells block = memory.cells block := by
  cases data with
  | none => rfl
  | some freed =>
      apply Blocks.cells_deallocate_of_ne
      rintro rfl
      exact apart rfl

/-- A copy fills an array of the same size, which may be the source. -/
theorem copy_holds {data : Option Nat} (holds : Holds memory other elements)
    (target : Holds memory ⟨other.size, data⟩ old) :
    ∃ after, copy memory other data = some after ∧ Holds after ⟨other.size, data⟩ elements ∧
      ∀ block, data ≠ some block → after.cells block = memory.cells block := by
  obtain ⟨size, source⟩ := other
  obtain ⟨rfl, cells⟩ := holds
  obtain ⟨length, there⟩ := target
  have length : elements.length = old.length := length
  cases data with
  | none =>
      obtain rfl : old = [] := there
      obtain rfl := List.length_eq_zero_iff.mp length
      exact ⟨memory, rfl, holds_empty, fun _ _ => rfl⟩
  | some block =>
      cases source with
      | none =>
          obtain rfl : elements = [] := cells
          obtain rfl := List.length_eq_zero_iff.mp length.symm
          exact ⟨memory, rfl, ⟨rfl, there⟩, fun _ _ => rfl⟩
      | some source =>
          refine ⟨_, Blocks.copy_eq cells there le_rfl (Nat.le_of_eq length), ⟨rfl, ?_⟩, ?_⟩
          · rw [List.take_length, List.drop_of_length_le (Nat.le_of_eq length.symm), List.append_nil]
            exact Blocks.cells_replace_self there
          · intro other different
            apply Blocks.cells_replace_of_ne
            rintro rfl
            exact different rfl

variable [Inhabited T]

theorem ofSize_replaces (memory : Blocks T) (size : Nat) :
    Replaces memory none (ofSize memory size) (List.replicate size default) where
  holds := ⟨List.length_replicate.symm, Blocks.cells_allocate_next⟩
  origin _ data := .inr (Option.some.inj data).symm
  kept _ _ found _ := Blocks.cells_allocate_of_some found

theorem ofList_replaces (memory : Blocks T) (list : List T) :
    ∃ effect, ofList memory list = some effect ∧ Replaces memory none effect list := by
  have fresh : (memory.allocate (List.replicate list.length default)).cells memory.next =
      some (List.replicate list.length default) := Blocks.cells_allocate_next
  have fits : 0 + list.length ≤ (List.replicate list.length (default : T)).length := by
    rw [Nat.zero_add, List.length_replicate]
  obtain ⟨after, written, -, kept, filled⟩ := Blocks.write_eq fresh fits
  refine ⟨_, congrArg (Option.map _) written, ⟨rfl, ?_⟩, ?_, ?_⟩
  · rw [List.take_zero, List.nil_append, List.drop_of_length_le (by simp), List.append_nil] at filled
    exact filled
  · exact fun _ data => .inr (Option.some.inj data).symm
  · intro block cells found _
    have apart : block ≠ memory.next := by
      rintro rfl
      rw [memory.fresh _ le_rfl] at found
      contradiction
    exact (kept block apart).trans (Blocks.cells_allocate_of_some found)

/-- Elements that are copied into the next block. -/
theorem copy_replaces {made : Blocks T} {freed : Option Nat} (holds : Holds made other elements)
    (fresh : made.cells memory.next = some (List.replicate other.size default))
    (kept : ∀ block cells, memory.cells block = some cells → freed ≠ some block →
      made.cells block = some cells) :
    ∃ after, copy made other (some memory.next) = some after ∧
      Replaces memory freed ⟨⟨other.size, some memory.next⟩, after⟩ elements := by
  have target : Holds made ⟨other.size, some memory.next⟩ (List.replicate other.size default) :=
    ⟨List.length_replicate.symm, fresh⟩
  obtain ⟨after, copied, filled, frame⟩ := copy_holds holds target
  refine ⟨after, copied, filled, fun _ data => .inr (Option.some.inj data).symm, ?_⟩
  intro block cells found apart
  have different : some memory.next ≠ some block := by
    rintro same
    rw [← Option.some.inj same, memory.fresh _ le_rfl] at found
    contradiction
  exact (frame block different).trans (kept block cells found apart)

/-- A copy has the elements of its source. -/
theorem copyConstruct_replaces (holds : Holds memory other elements) :
    ∃ effect, copyConstruct memory other = some effect ∧ Replaces memory none effect elements := by
  have made := ofSize_replaces memory other.size
  have source : Holds (ofSize memory other.size).memory other elements :=
    holds.kept fun block cells _ found => made.kept block cells found nofun
  obtain ⟨after, copied, replaces⟩ := copy_replaces source made.holds.2 made.kept
  exact ⟨_, congrArg (Option.map _) copied, replaces⟩

/-- The elements are copied into the old block, if it has the right size. -/
theorem copyAssign_replaces {this : DynamicArray} (target : Holds memory this old)
    (holds : Holds memory other elements)
    (apart : ∀ block, this.data = some block → other.data = some block → this = other) :
    ∃ effect, copyAssign memory this other = some effect ∧ Replaces memory this.data effect elements := by
  by_cases same : other.size = this.size
  · have fits : Holds memory ⟨other.size, this.data⟩ old := by
      rw [same]
      exact target
    obtain ⟨after, copied, filled, frame⟩ := copy_holds holds fits
    refine ⟨⟨⟨other.size, this.data⟩, after⟩, ?_, filled, fun _ data => .inl data, ?_⟩
    · rw [copyAssign, if_neg (not_not.mpr same)]
      exact congrArg (Option.map _) copied
    · exact fun block cells found apart => (frame block apart).trans found
  · let fresh := memory.allocate (List.replicate other.size (default : T))
    have made : (reset fresh this.data).cells memory.next = some (List.replicate other.size default) :=
      (cells_reset (target.not_next)).trans Blocks.cells_allocate_next
    have kept : ∀ block cells, memory.cells block = some cells → this.data ≠ some block →
        (reset fresh this.data).cells block = some cells := by
      intro block cells found apart
      rw [cells_reset apart]
      exact Blocks.cells_allocate_of_some found
    have source : Holds (reset fresh this.data) other elements := by
      apply holds.kept
      intro block cells data found
      refine kept block cells found fun freed => same ?_
      rw [apart block freed data]
    obtain ⟨after, copied, replaces⟩ := copy_replaces source made kept
    refine ⟨_, ?_, replaces⟩
    rw [copyAssign, if_pos same]
    exact congrArg (Option.map _) copied

omit [Inhabited T] in
theorem assignAt_replaces (holds : Holds memory array elements) {i : Nat} (value : T)
    (inside : i < elements.length) :
    ∃ effect, assignAt memory array i value = some effect ∧
      Replaces memory array.data effect (elements.set i value) := by
  obtain ⟨size, data⟩ := array
  obtain ⟨rfl, cells⟩ := holds
  cases data with
  | none =>
      obtain rfl : elements = [] := cells
      contradiction
  | some block =>
      refine ⟨_, congrArg (Option.map _) (Blocks.set_eq cells inside value), ⟨?_, ?_⟩, ?_, ?_⟩
      · exact List.length_set.symm
      · exact Blocks.cells_replace_self cells
      · exact fun _ data => .inl data
      · intro other found there apart
        refine (Blocks.cells_replace_of_ne ?_).trans there
        rintro rfl
        exact apart rfl

omit [Inhabited T] in
theorem Holds.assignAt_outside (holds : Holds memory array elements) {i : Nat} (value : T)
    (outside : ¬ i < elements.length) : assignAt memory array i value = none := by
  obtain ⟨size, data⟩ := array
  obtain ⟨rfl, cells⟩ := holds
  cases data with
  | none => rfl
  | some block =>
      have found : memory.cells block = some elements := cells
      rw [assignAt, Blocks.set, Option.bind_some, found, Option.bind_some, if_neg outside]
      rfl

end Functions

end DynamicArray

end MartCommon.Mba
