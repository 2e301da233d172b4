import MartCommon.Library.Blocks
import MartCommon.Library.Ownership
import MartCommon.Library.StepSystem

namespace MartCommon.Experimental

open Library

/-- `DynArrayTriv<T, Alloc>`. There is no other capacity than `_size`. -/
structure DynArrayTriv where
  data : Option Nat := none
  size : Nat := 0
  deriving DecidableEq

namespace DynArrayTriv

variable {T : Type*}

/-- An element is not there before it has been written. -/
abbrev Memory (T : Type*) := Blocks (Option T)

/-- A call of the allocator, with a block and its number of elements. -/
abbrev Call := Ownership.Event (Nat × Nat)

/-- What a call of the allocator returns and does. -/
structure Allocated (T : Type*) where
  data : Option Nat
  calls : List Call
  memory : Memory T

/-- What a function leaves behind: the array that it has made or changed, and its calls. -/
structure Effect (T : Type*) where
  this : DynArrayTriv
  calls : List Call
  memory : Memory T

/-- A `const T&` refers to a value elsewhere, or to the place of an element. -/
inductive Reference (T : Type*) where
  | value (t : T)
  | element (data : Option Nat) (index : Nat)

/-- What is read through a reference. There is no result where its block does not exist any more. -/
def Reference.read (memory : Memory T) : Reference T → Option (Option T)
  | .value t => some (some t)
  | .element data index => memory.get data index

section Functions

variable (nullForNone : Bool) (memory : Memory T)

/-- `Alloc::allocate( count )`. Some allocators return a null pointer for no elements. -/
def allocate (count : Nat) : Allocated T :=
  if nullForNone && count == 0 then ⟨none, [], memory⟩
  else
    ⟨some memory.next, [.acquired (memory.next, count)],
      memory.allocate (List.replicate count none)⟩

/-- `Alloc::reallocate( pointer, count )` keeps the block with another number of elements, or it copies
the elements and releases the old block itself. -/
def reallocate (keeps : Bool) (pointer : Option Nat) (count : Nat) : Option (Allocated T) :=
  match pointer with
  | none => some (allocate nullForNone memory count)
  | some block =>
      (memory.cells block).map fun old =>
        let cells := old.take count ++ List.replicate (count - old.length) none
        if keeps then
          ⟨some block, [.closed (block, old.length), .acquired (block, count)],
            memory.replace block cells⟩
        else
          ⟨some memory.next, [.acquired (memory.next, count), .closed (block, old.length)],
            (memory.allocate cells).deallocate block⟩

/-- `DynArrayTriv( std::size_t size )` -/
def ofSize (size : Nat) : Effect T :=
  let made := allocate nullForNone memory size
  ⟨⟨made.data, size⟩, made.calls, made.memory⟩

/-- What the constructors for elements have in common. -/
def ofElements (elements : List T) : Option (Effect T) :=
  let made := ofSize nullForNone memory elements.length
  (made.memory.write made.this.data 0 (elements.map some)).map fun memory => { made with memory := memory }

/-- `DynArrayTriv( const DynArrayTriv& other )` -/
def copyConstruct (other : DynArrayTriv) : Option (Effect T) :=
  let made := ofSize nullForNone memory other.size
  (made.memory.read other.data other.size).bind fun elements =>
    (made.memory.write made.this.data 0 elements).map fun memory => { made with memory := memory }

/-- `operator=( const DynArrayTriv& other )` -/
def copyAssign (this other : DynArrayTriv) : Option (Effect T) :=
  let grown :=
    if this.size < other.size then allocate nullForNone memory other.size else ⟨this.data, [], memory⟩
  (grown.memory.read other.data other.size).bind fun elements =>
    (grown.memory.write grown.data 0 elements).map fun memory =>
      ⟨⟨grown.data, other.size⟩, grown.calls, memory⟩

/-- `append( const T& t ) &&` with the array that it returns. What is left is the default one. The reference
is read behind the reallocation. -/
def appendMove (keeps : Bool) (this : DynArrayTriv) (t : Reference T) : Option (Effect T) :=
  (reallocate nullForNone memory keeps this.data (this.size + 1)).bind fun grown =>
    (t.read grown.memory).bind fun value =>
      (grown.memory.write grown.data this.size [value]).map fun memory =>
        ⟨⟨grown.data, this.size + 1⟩, grown.calls, memory⟩

/-- `append( const T& t ) const` -/
def append (this : DynArrayTriv) (t : Reference T) : Option (Effect T) :=
  let ret := ofSize nullForNone memory (this.size + 1)
  (ret.memory.read this.data this.size).bind fun elements =>
    (ret.memory.write ret.this.data 0 elements).bind fun memory =>
      (t.read memory).bind fun value =>
        (memory.write ret.this.data this.size [value]).map fun memory => { ret with memory := memory }

/-- `~DynArrayTriv()` -/
def destruct (this : DynArrayTriv) : List Call × Memory T :=
  match this.data with
  | none => ([], memory)
  | some block => ([.closed (block, this.size)], memory.deallocate block)

end Functions

/-- What a program appends: a value of its own, or an element of an array. -/
inductive Argument (T : Type*) where
  | value (t : T)
  | element (array index : Nat)

/-- It is no element of the array. -/
def Argument.apart (source : Nat) : Argument T → Bool
  | .value _ => true
  | .element array _ => array != source

inductive Action (T : Type*) where
  | default (object : Nat)
  | initializerList (object : Nat) (init : List T)
  | size (object count : Nat)
  | span (object : Nat) (elements : List T)
  | iterators (object : Nat) (elements : List T)
  | copyConstruct (object source : Nat)
  | moveConstruct (object source : Nat)
  | copyAssign (target source : Nat)
  | moveAssign (target source : Nat)
  | appendMove (object source : Nat) (t : Argument T) (keeps : Bool)
  | append (object source : Nat) (t : Argument T)
  | destroy (object : Nat)

/-- The calls of the allocator, whether an element outside of its block was accessed, and for a copy
assignment the elements of the source before and of the target behind it. -/
structure Event (T : Type*) where
  calls : List Call := []
  outside : Bool := false
  copied : Option (Option (List (Option T)) × Option (List (Option T))) := none

structure State (T : Type*) where
  arrays : Nat → Option DynArrayTriv := fun _ => none
  memory : Memory T := .empty

namespace State

/-- An array with its new contents, unless elements outside of a block were accessed. -/
def put (state : State T) (object : Nat) : Option (Effect T) → Event T × State T
  | none => ({ outside := true }, state)
  | some effect =>
      ({ calls := effect.calls },
        ⟨Function.update state.arrays object (some effect.this), effect.memory⟩)

def create (state : State T) (object : Nat) (made : Option (Effect T)) : Option (Event T × State T) :=
  if (state.arrays object).isSome then none else some (state.put object made)

/-- The elements from `begin` to `end`. -/
def elements (state : State T) (object : Nat) : Option (List (Option T)) :=
  (state.arrays object).bind fun array => state.memory.read array.data array.size

/-- The reference that an argument is bound to. -/
def refer (state : State T) : Argument T → Option (Reference T)
  | .value t => some (.value t)
  | .element array index =>
      (state.arrays array).bind fun this =>
        if index < this.size then some (.element this.data index) else none

/-- The pointer and the size move to the target, which an empty array is left for. -/
def move (state : State T) (target source : Nat) : Option (Event T × State T) :=
  (state.arrays source).map fun other =>
    ({}, { state with
      arrays := Function.update (Function.update state.arrays source (some {})) target (some other) })

end State

/-- A program with arrays of one type. -/
def system (T : Type*) (nullForNone : Bool) : StepSystem (State T) (Action T) (Event T) where
  step state
    | .default object => state.create object (some ⟨{}, [], state.memory⟩)
    | .size object count => state.create object (some (ofSize nullForNone state.memory count))
    | .initializerList object elements | .span object elements | .iterators object elements =>
        state.create object (ofElements nullForNone state.memory elements)
    | .copyConstruct object source =>
        (state.arrays source).bind fun other =>
          state.create object (DynArrayTriv.copyConstruct nullForNone state.memory other)
    | .moveConstruct object source =>
        if (state.arrays object).isSome then none else state.move object source
    | .copyAssign target source =>
        (state.arrays target).bind fun this =>
          (state.arrays source).map fun other =>
            let made := state.put target (DynArrayTriv.copyAssign nullForNone state.memory this other)
            ({ made.1 with copied := some (state.elements source, made.2.elements target) }, made.2)
    | .moveAssign target source =>
        if (state.arrays target).isSome then state.move target source else none
    | .append object source t =>
        (state.arrays source).bind fun this =>
          (state.refer t).bind fun t =>
            state.create object (DynArrayTriv.append nullForNone state.memory this t)
    | .appendMove object source t keeps =>
        (state.arrays source).bind fun this =>
          (state.refer t).bind fun t =>
            { state with arrays := Function.update state.arrays source (some {}) }.create object
              (DynArrayTriv.appendMove nullForNone state.memory keeps this t)
    | .destroy object =>
        (state.arrays object).map fun this =>
          let done := this.destruct state.memory
          ({ calls := done.1 }, ⟨Function.update state.arrays object none, done.2⟩)

/-- The condition on a step: the target of an assignment has no block, the arrays of a copy assignment
have the same size, or an array is moved to itself. Where an element of the array itself is appended to it in
place, its block stays. -/
def allowed (state : State T) : Action T → Bool
  | .copyAssign target source =>
      match state.arrays target, state.arrays source with
      | some this, some other => this.data.isNone || this.size == other.size
      | _, _ => true
  | .moveAssign target source =>
      target == source || ((state.arrays target).bind DynArrayTriv.data).isNone
  | .appendMove _ source t keeps => keeps || t.apart source
  | _ => true

/-- The block of an array with its number of elements. -/
def block (array : DynArrayTriv) : Option (Nat × Nat) := array.data.map fun data => (data, array.size)

def State.holds (state : State T) (object : Nat) : Option (Nat × Nat) :=
  (state.arrays object).bind block

/-- The accounts of a run: no element outside of a block was accessed, copies have the elements of their
source, a block is deallocated once after each allocation, with its number of elements, and none is left
without an array. -/
structure Accounts (history : List (Event T)) (final : State T) : Prop where
  inside : ∀ event ∈ history, event.outside = false
  copied : ∀ event ∈ history, ∀ source target, event.copied = some (source, target) →
    source.isSome ∧ target = source
  tracked : ∀ resource, ∃ held,
    Ownership.track resource false (history.flatMap Event.calls) = some held ∧
      (held = true ↔ ∃ object, final.holds object = some resource)
  settled : (∀ object, final.arrays object = none) → ∀ resource,
    (history.flatMap Event.calls).count (.acquired resource) =
      (history.flatMap Event.calls).count (.closed resource)

/-- What every step keeps: blocks have exactly one array, and its size is their number of elements. -/
structure Accounted (history : List Call) (state : State T) : Prop where
  owned : Ownership.Owned history state.holds
  counted : ∀ block count, state.memory.counts block = some count ↔
    ∃ object, state.holds object = some (block, count)
  backed : ∀ object array, state.arrays object = some array → array.data = none → array.size = 0
  kept : ∀ resource, .released resource ∉ history

section Backing

/-- The block of an array is as long as the array. -/
def Backs (memory : Memory T) (array : DynArrayTriv) : Prop :=
  match array.data with
  | none => array.size = 0
  | some block => memory.counts block = some array.size

variable {memory after : Memory T} {array : DynArrayTriv}

theorem backs_of_counts (backs : Backs memory array) (same : after.counts = memory.counts) :
    Backs after array := by
  unfold Backs at backs ⊢
  rwa [same]

theorem read_backed (backs : Backs memory array) :
    ∃ elements, memory.read array.data array.size = some elements ∧ elements.length = array.size := by
  unfold Backs at backs
  split at backs
  · rw [backs]
    exact ⟨[], rfl, rfl⟩
  · rename_i block data
    obtain ⟨cells, found, length⟩ := Blocks.counts_eq_some.mp backs
    refine ⟨cells, ?_, length⟩
    rw [data, Blocks.read_eq found _ (Nat.le_of_eq length.symm), ← length, List.take_length]

theorem write_backed (backs : Backs memory array) {start : Nat} {written : List (Option T)}
    (inside : start + written.length ≤ array.size) :
    ∃ after, memory.write array.data start written = some after ∧ after.counts = memory.counts := by
  unfold Backs at backs
  split at backs
  · have nothing : written = [] := List.length_eq_zero_iff.mp (by omega)
    exact ⟨memory, if_pos nothing, rfl⟩
  · rename_i block data
    obtain ⟨cells, found, length⟩ := Blocks.counts_eq_some.mp backs
    have fits : start + written.length ≤ cells.length := by omega
    obtain ⟨after, done, same, -⟩ := Blocks.write_eq found fits
    exact ⟨after, by rw [data, done], same⟩

/-- A reference to an element has an array behind it. -/
def Refers (memory : Memory T) : Reference T → Prop
  | .value _ => True
  | .element data index => ∃ array, Backs memory array ∧ array.data = data ∧ index < array.size

theorem read_refers {t : Reference T} (refers : Refers memory t) : ∃ value, t.read memory = some value := by
  cases t with
  | value t => exact ⟨some t, rfl⟩
  | element data index =>
      obtain ⟨array, backs, rfl, inside⟩ := refers
      unfold Backs at backs
      split at backs
      · rw [backs] at inside
        contradiction
      · rename_i block there
        obtain ⟨cells, found, length⟩ := Blocks.counts_eq_some.mp backs
        rw [← length] at inside
        refine ⟨cells[index], ?_⟩
        rw [Reference.read, there, Blocks.get, Option.bind_some, found, Option.bind_some,
          List.getElem?_eq_getElem inside]

theorem refers_of_counts {t : Reference T} (refers : Refers memory t) (same : after.counts = memory.counts) :
    Refers after t := by
  cases t with
  | value t => trivial
  | element data index =>
      obtain ⟨array, backs, there, inside⟩ := refers
      exact ⟨array, backs_of_counts backs same, there, inside⟩

/-- Elements that fill an array are read back. -/
theorem read_write (backs : Backs memory array) {written : List (Option T)}
    (whole : written.length = array.size) (done : memory.write array.data 0 written = some after) :
    after.read array.data array.size = some written := by
  unfold Backs at backs
  split at backs
  · rename_i data
    have nothing : written = [] := List.length_eq_zero_iff.mp (by omega)
    rw [backs, nothing]
    rfl
  · rename_i block data
    obtain ⟨cells, found, length⟩ := Blocks.counts_eq_some.mp backs
    have fits : 0 + written.length ≤ cells.length := by omega
    obtain ⟨_, again, -, -, stored⟩ := Blocks.write_eq found fits
    rw [data, again, Option.some.injEq] at done
    subst done
    rw [List.take_zero, List.nil_append, Nat.zero_add, List.drop_of_length_le (by omega),
      List.append_nil] at stored
    rw [data, Blocks.read_eq stored _ (Nat.le_of_eq whole.symm), ← whole, List.take_length]

end Backing

section Accounting

variable {history : List Call} {state : State T} {memory : Memory T} {object : Nat}

theorem Accounted.backs (accounted : Accounted history state) {array : DynArrayTriv}
    (found : state.arrays object = some array) : Backs state.memory array := by
  unfold Backs
  split
  · rename_i data
    exact accounted.backed object array found data
  · rename_i block data
    refine (accounted.counted block array.size).mpr ⟨object, ?_⟩
    rw [State.holds, found, Option.bind_some, DynArrayTriv.block, data, Option.map_some]

theorem Accounted.refers (accounted : Accounted history state) {argument : Argument T} {t : Reference T}
    (bound : state.refer argument = some t) : Refers state.memory t := by
  cases argument with
  | value t =>
      cases bound
      trivial
  | element array index =>
      obtain ⟨this, found, inside⟩ := Option.bind_eq_some_iff.mp bound
      rw [Option.ite_none_right_eq_some] at inside
      obtain ⟨inside, same⟩ := inside
      cases same
      exact ⟨this, accounted.backs found, rfl, inside⟩

theorem holds_update (arrays : Nat → Option DynArrayTriv) (memory : Memory T) (object : Nat)
    (array : Option DynArrayTriv) :
    State.holds ⟨Function.update arrays object array, memory⟩ =
      Function.update (State.holds ⟨arrays, memory⟩) object (array.bind DynArrayTriv.block) :=
  Function.comp_update (fun array : Option DynArrayTriv => array.bind DynArrayTriv.block) arrays object array

theorem backed_update {arrays : Nat → Option DynArrayTriv}
    (backed : ∀ object array, arrays object = some array → array.data = none → array.size = 0)
    {new : Option DynArrayTriv}
    (newBacked : ∀ array, new = some array → array.data = none → array.size = 0) :
    ∀ other array, Function.update arrays object new other = some array →
      array.data = none → array.size = 0 := by
  intro other array found
  by_cases same : other = object
  · rw [same, Function.update_self] at found
    exact newBacked array found
  · rw [Function.update_of_ne same] at found
    exact backed other array found

/-- What an object has before and behind does not matter for a block that is neither. -/
theorem exists_update_iff {holds : Nat → Option (Nat × Nat)} {object : Nat} {new : Option (Nat × Nat)}
    {resource : Nat × Nat} (old : holds object ≠ some resource) (other : new ≠ some resource) :
    (∃ holder, Function.update holds object new holder = some resource) ↔
      ∃ holder, holds holder = some resource := by
  refine exists_congr fun holder => ?_
  by_cases here : holder = object
  · rw [here, Function.update_self]
    exact iff_of_false other old
  · rw [Function.update_of_ne here]

/-- An acquisition or a closing is no release. -/
theorem Accounted.kept_append (accounted : Accounted history state) {call : Call}
    (other : ∀ resource, .released resource ≠ call) (resource : Nat × Nat) :
    .released resource ∉ history ++ [call] := by
  rw [List.mem_append, List.mem_singleton, not_or]
  exact ⟨accounted.kept resource, other resource⟩

/-- Only the numbers of elements of the blocks matter. -/
theorem Accounted.sameCounts (accounted : Accounted history state)
    (same : memory.counts = state.memory.counts) : Accounted history ⟨state.arrays, memory⟩ where
  owned := accounted.owned
  counted := by
    rw [same]
    exact accounted.counted
  backed := accounted.backed
  kept := accounted.kept

/-- An object without a block may be an array without elements, or none. -/
theorem Accounted.blank (accounted : Accounted history state) (empty : state.holds object = none)
    {array : Option DynArrayTriv} (none : array = none ∨ array = some {}) :
    Accounted history ⟨Function.update state.arrays object array, state.memory⟩ := by
  have holds : State.holds ⟨Function.update state.arrays object array, state.memory⟩ = state.holds := by
    rw [holds_update]
    refine Function.update_eq_self_iff.mpr ?_
    rcases none with rfl | rfl <;> exact empty.symm
  constructor
  · rw [holds]
    exact accounted.owned
  · rw [holds]
    exact accounted.counted
  · refine backed_update accounted.backed fun new same => ?_
    rcases none with rfl | rfl
    · contradiction
    · cases same
      exact fun _ => rfl
  · exact accounted.kept

/-- An object without a block may become an array with a new one. -/
theorem Accounted.acquire (accounted : Accounted history state) (empty : state.holds object = none)
    {block count : Nat} (free : state.memory.counts block = none)
    (counts : memory.counts = Function.update state.memory.counts block (some count)) :
    Accounted (history ++ [.acquired (block, count)])
      ⟨Function.update state.arrays object (some ⟨some block, count⟩), memory⟩ := by
  have unheld (other number : Nat) : state.holds other ≠ some (block, number) := fun held => by
    rw [(accounted.counted block number).mpr ⟨other, held⟩] at free
    contradiction
  have holds : State.holds ⟨Function.update state.arrays object (some ⟨some block, count⟩), memory⟩ =
      Function.update state.holds object (some (block, count)) := holds_update ..
  constructor
  · rw [holds]
    exact accounted.owned.acquire (fun other => unheld other count) empty
  · intro other number
    rw [counts, holds]
    by_cases same : other = block
    · subst same
      rw [Function.update_self, Option.some.injEq]
      constructor
      · rintro rfl
        exact ⟨object, Function.update_self ..⟩
      · rintro ⟨holder, held⟩
        by_cases here : holder = object
        · rw [here, Function.update_self] at held
          cases held
          rfl
        · rw [Function.update_of_ne here] at held
          exact absurd held (unheld holder number)
    · rw [Function.update_of_ne same, accounted.counted]
      refine (exists_update_iff (by simp [empty]) fun held => same ?_).symm
      cases held
      rfl
  · refine backed_update accounted.backed fun array same null => ?_
    cases same
    contradiction
  · exact accounted.kept_append (by simp)

/-- The array of a block gives it back with its number of elements. -/
theorem Accounted.close (accounted : Accounted history state) {block count : Nat}
    (found : state.arrays object = some ⟨some block, count⟩)
    (counts : memory.counts = Function.update state.memory.counts block none)
    {left : Option DynArrayTriv} (none : left = none ∨ left = some {}) :
    Accounted (history ++ [.closed (block, count)])
      ⟨Function.update state.arrays object left, memory⟩ := by
  have held : state.holds object = some (block, count) := by
    rw [State.holds, found]
    rfl
  have counted : state.memory.counts block = some count := (accounted.counted ..).mpr ⟨object, held⟩
  have holds : State.holds ⟨Function.update state.arrays object left, memory⟩ =
      Function.update state.holds object Option.none := by
    rw [holds_update]
    rcases none with rfl | rfl <;> rfl
  constructor
  · rw [holds]
    exact accounted.owned.dispose held (.inl rfl)
  · intro other number
    rw [counts, holds]
    by_cases same : other = block
    · subst same
      rw [Function.update_self]
      refine iff_of_false (by simp) ?_
      rintro ⟨holder, held'⟩
      by_cases here : holder = object
      · rw [here, Function.update_self] at held'
        contradiction
      · rw [Function.update_of_ne here] at held'
        have again := (accounted.counted other number).mpr ⟨holder, held'⟩
        rw [counted, Option.some.injEq] at again
        subst again
        exact here (accounted.owned.unique holder object _ held' held)
    · rw [Function.update_of_ne same, accounted.counted]
      refine (exists_update_iff (fun here => same ?_) (by simp)).symm
      rw [held] at here
      cases here
      rfl
  · refine backed_update accounted.backed fun array same => ?_
    rcases none with rfl | rfl
    · contradiction
    · cases same
      exact fun _ => rfl
  · exact accounted.kept_append (by simp)

/-- A block moves to an object without one. -/
theorem Accounted.move (accounted : Accounted history state) {target source : Nat}
    {array : DynArrayTriv} (empty : state.holds target = none)
    (found : state.arrays source = some array) :
    Accounted history
      ⟨Function.update (Function.update state.arrays source (some {})) target (some array),
        state.memory⟩ := by
  have owned : Ownership.Owned history
      (Function.update (Function.update state.holds source Option.none) target (state.holds source)) :=
    accounted.owned.move empty
  have held : state.holds source = array.block := by
    rw [State.holds, found]
    rfl
  have holds : State.holds
      ⟨Function.update (Function.update state.arrays source (some {})) target (some array),
        state.memory⟩ =
      Function.update (Function.update state.holds source Option.none) target (state.holds source) := by
    rw [holds_update, holds_update, held]
    rfl
  constructor
  · rw [holds]
    exact owned
  · intro block count
    obtain ⟨before, track, holder⟩ := accounted.owned.tracked (block, count)
    obtain ⟨after, again, holder'⟩ := owned.tracked (block, count)
    obtain rfl : before = after := Option.some.inj (track.symm.trans again)
    rw [holds, accounted.counted, ← holder, ← holder']
  · refine backed_update (backed_update accounted.backed ?_) ?_
    · intro array same
      cases same
      exact fun _ => rfl
    · intro other same
      cases same
      exact accounted.backed source array found
  · exact accounted.kept

end Accounting

section Specifications

variable {nullForNone : Bool} {memory : Memory T} {count : Nat} {other : DynArrayTriv}

/-- The effects of two functions differ in the values of the elements only. -/
structure Effect.Alike (effect like : Effect T) : Prop where
  this : effect.this = like.this
  calls : effect.calls = like.calls
  counts : effect.memory.counts = like.memory.counts

theorem allocate_cases (nullForNone : Bool) (memory : Memory T) (count : Nat) :
    count = 0 ∧ allocate nullForNone memory count = ⟨none, [], memory⟩ ∨
      allocate nullForNone memory count = ⟨some memory.next, [.acquired (memory.next, count)],
        memory.allocate (List.replicate count none)⟩ := by
  unfold allocate
  split
  · rename_i null
    rw [Bool.and_eq_true, beq_iff_eq] at null
    exact .inl ⟨null.2, rfl⟩
  · exact .inr rfl

theorem counts_allocated (memory : Memory T) (count : Nat) :
    (memory.allocate (List.replicate count none)).counts =
      Function.update memory.counts memory.next (some count) := by
  rw [Blocks.counts_allocate, List.length_replicate]

theorem ofSize_backs :
    Backs (ofSize nullForNone memory count).memory (ofSize nullForNone memory count).this := by
  unfold ofSize
  rcases allocate_cases nullForNone memory count with ⟨rfl, null⟩ | fresh
  · rw [null]
    rfl
  · rw [fresh]
    change Blocks.counts _ _ = _
    rw [counts_allocated, Function.update_self]

/-- The blocks that are there are not changed by an allocation. -/
theorem read_allocate (backs : Backs memory other) :
    (allocate nullForNone memory count).memory.read other.data other.size =
      memory.read other.data other.size := by
  rcases allocate_cases nullForNone memory count with ⟨-, null⟩ | fresh
  · rw [null]
  · rw [fresh]
    unfold Backs at backs
    split at backs
    · rw [backs]
      rfl
    · rename_i block data
      have apart : block ≠ memory.next := by
        rintro rfl
        rw [Blocks.counts_next] at backs
        contradiction
      simp only [Blocks.read, data, Option.bind_some, Blocks.allocate, Function.update_of_ne apart]

theorem backs_allocate (backs : Backs memory other) :
    Backs (allocate nullForNone memory count).memory other := by
  rcases allocate_cases nullForNone memory count with ⟨-, null⟩ | fresh
  · rw [null]
    exact backs
  · rw [fresh]
    obtain ⟨data, size⟩ := other
    cases data with
    | none => exact backs
    | some block =>
        have counted : memory.counts block = some size := backs
        have apart : block ≠ memory.next := by
          rintro rfl
          rw [Blocks.counts_next] at counted
          contradiction
        change Blocks.counts _ block = some size
        rw [counts_allocated, Function.update_of_ne apart, counted]

theorem refers_allocate {t : Reference T} (refers : Refers memory t) :
    Refers (allocate nullForNone memory count).memory t := by
  cases t with
  | value t => trivial
  | element data index =>
      obtain ⟨array, backs, there, inside⟩ := refers
      exact ⟨array, backs_allocate backs, there, inside⟩

theorem ofElements_alike (elements : List T) :
    ∃ effect, ofElements nullForNone memory elements = some effect ∧
      effect.Alike (ofSize nullForNone memory elements.length) := by
  have inside : 0 + (elements.map some).length ≤ (ofSize nullForNone memory elements.length).this.size := by
    rw [List.length_map, Nat.zero_add]
    exact Nat.le_refl _
  obtain ⟨after, done, same⟩ := write_backed ofSize_backs inside
  exact ⟨_, congrArg (Option.map _) done, rfl, rfl, same⟩

/-- The elements of an array can be written into a new one of its size. -/
theorem copied_new (nullForNone : Bool) (backs : Backs memory other) :
    ∃ elements after, memory.read other.data other.size = some elements ∧ elements.length = other.size ∧
      (ofSize nullForNone memory other.size).memory.write
        (ofSize nullForNone memory other.size).this.data 0 elements = some after ∧
      after.counts = (ofSize nullForNone memory other.size).memory.counts := by
  obtain ⟨elements, found, length⟩ := read_backed backs
  have inside : 0 + elements.length ≤ (ofSize nullForNone memory other.size).this.size := by
    rw [length, Nat.zero_add]
    exact Nat.le_refl _
  obtain ⟨after, done, same⟩ := write_backed ofSize_backs inside
  exact ⟨elements, after, found, length, done, same⟩

theorem copyConstruct_alike (backs : Backs memory other) :
    ∃ effect, copyConstruct nullForNone memory other = some effect ∧
      effect.Alike (ofSize nullForNone memory other.size) := by
  obtain ⟨elements, after, found, -, done, same⟩ := copied_new nullForNone backs
  refine ⟨{ ofSize nullForNone memory other.size with memory := after }, ?_, rfl, rfl, same⟩
  have read : (ofSize nullForNone memory other.size).memory.read other.data other.size = some elements :=
    (read_allocate backs).trans found
  rw [copyConstruct, read, Option.bind_some, done, Option.map_some]

theorem append_alike (backs : Backs memory other) {t : Reference T} (refers : Refers memory t) :
    ∃ effect, append nullForNone memory other t = some effect ∧
      effect.Alike (ofSize nullForNone memory (other.size + 1)) := by
  obtain ⟨elements, found, length⟩ := read_backed backs
  have size : (ofSize nullForNone memory (other.size + 1)).this.size = other.size + 1 := rfl
  have inside : 0 + elements.length ≤ (ofSize nullForNone memory (other.size + 1)).this.size := by
    omega
  obtain ⟨middle, copied, counts⟩ := write_backed ofSize_backs inside
  have refersCopied : Refers middle t := refers_of_counts (refers_allocate refers) counts
  obtain ⟨value, given⟩ := read_refers refersCopied
  have last : other.size + [value].length ≤ (ofSize nullForNone memory (other.size + 1)).this.size :=
    Nat.le_of_eq size.symm
  obtain ⟨after, done, same⟩ := write_backed (backs_of_counts ofSize_backs counts) last
  refine ⟨{ ofSize nullForNone memory (other.size + 1) with memory := after }, ?_, rfl, rfl,
    same.trans counts⟩
  have read : (ofSize nullForNone memory (other.size + 1)).memory.read other.data other.size =
      some elements := (read_allocate backs).trans found
  rw [append, read, Option.bind_some, copied, Option.bind_some, given, Option.bind_some, done,
    Option.map_some]

/-- A copy assignment to an array without a block that has to grow makes a new one. -/
theorem copyAssign_grows {this : DynArrayTriv} (backs : Backs memory other)
    (grows : this.size < other.size) :
    ∃ effect, copyAssign nullForNone memory this other = some effect ∧
      effect.Alike (ofSize nullForNone memory other.size) ∧
        effect.memory.read effect.this.data effect.this.size = memory.read other.data other.size := by
  obtain ⟨elements, after, found, length, done, same⟩ := copied_new nullForNone backs
  refine ⟨{ ofSize nullForNone memory other.size with memory := after }, ?_, ⟨rfl, rfl, same⟩, ?_⟩
  · rw [copyAssign, if_pos grows, read_allocate backs, found, Option.bind_some]
    exact congrArg (Option.map _) done
  · rw [found]
    exact read_write ofSize_backs length done

/-- A copy assignment between arrays of one size goes into the block that is there. -/
theorem copyAssign_fits {this : DynArrayTriv} (target : Backs memory this) (backs : Backs memory other)
    (same : this.size = other.size) :
    ∃ after, copyAssign nullForNone memory this other = some ⟨this, [], after⟩ ∧
      after.counts = memory.counts ∧
        after.read this.data this.size = memory.read other.data other.size := by
  obtain ⟨elements, found, length⟩ := read_backed backs
  have whole : elements.length = this.size := length.trans same.symm
  have inside : 0 + elements.length ≤ this.size := by omega
  obtain ⟨after, done, counts⟩ := write_backed target inside
  refine ⟨after, ?_, counts, ?_⟩
  · rw [copyAssign, if_neg (by omega)]
    simp only [found, Option.bind_some, done, Option.map_some]
    rw [← same]
  · rw [found]
    exact read_write target whole done

end Specifications

section Steps

variable {nullForNone : Bool} {history : List Call} {state after : State T} {object source : Nat}
  {event : Event T}

/-- What a step adds to the accounts. -/
structure Sound (history : List Call) (event : Event T) (after : State T) : Prop where
  inside : event.outside = false
  copied : ∀ source target, event.copied = some (source, target) → source.isSome ∧ target = source
  accounted : Accounted (history ++ event.calls) after

/-- An array that is made like one of a size is accounted for. -/
theorem Accounted.create {effect : Effect T} {count : Nat} (accounted : Accounted history state)
    (empty : state.holds object = none) (alike : effect.Alike (ofSize nullForNone state.memory count)) :
    Accounted (history ++ effect.calls)
      ⟨Function.update state.arrays object (some effect.this), effect.memory⟩ := by
  obtain ⟨this, calls, counts⟩ := alike
  rw [this, calls]
  unfold ofSize at counts ⊢
  rcases allocate_cases nullForNone state.memory count with ⟨rfl, null⟩ | fresh
  · rw [null] at counts ⊢
    rw [List.append_nil]
    exact (accounted.blank empty (.inr rfl)).sameCounts counts
  · rw [fresh] at counts ⊢
    exact accounted.acquire empty Blocks.counts_next (counts.trans (counts_allocated ..))

/-- A new array takes the place of none. -/
theorem created_eq {made : Option (Effect T)} (created : state.create object made = some (event, after)) :
    state.holds object = none ∧ state.put object made = (event, after) := by
  rw [State.create, Option.ite_none_left_eq_some, Option.not_isSome_iff_eq_none,
    Option.some.injEq] at created
  obtain ⟨missing, same⟩ := created
  refine ⟨?_, same⟩
  rw [State.holds, missing]
  rfl

theorem create_sound {made : Option (Effect T)} {effect : Effect T} {count : Nat}
    (accounted : Accounted history state) (done : made = some effect)
    (alike : effect.Alike (ofSize nullForNone state.memory count))
    (created : state.create object made = some (event, after)) : Sound history event after := by
  obtain ⟨empty, same⟩ := created_eq created
  rw [done] at same
  obtain ⟨rfl, rfl⟩ := Prod.mk.inj same
  exact ⟨rfl, by simp, accounted.create empty alike⟩

theorem default_sound (accounted : Accounted history state)
    (created : state.create object (some ⟨{}, [], state.memory⟩) = some (event, after)) :
    Sound history event after := by
  obtain ⟨empty, same⟩ := created_eq created
  obtain ⟨rfl, rfl⟩ := Prod.mk.inj same
  refine ⟨rfl, by simp, ?_⟩
  rw [List.append_nil]
  exact accounted.blank empty (.inr rfl)

theorem move_sound (accounted : Accounted history state) (empty : state.holds object = none)
    (moved : state.move object source = some (event, after)) : Sound history event after := by
  obtain ⟨other, found, same⟩ := Option.map_eq_some_iff.mp moved
  obtain ⟨rfl, rfl⟩ := Prod.mk.inj same
  refine ⟨rfl, by simp, ?_⟩
  rw [List.append_nil]
  exact accounted.move empty found

/-- Writing into an array that already has its block finishes an append. -/
theorem appended {grown : Allocated T} {this : DynArrayTriv} {t : Option T}
    {arrays : Nat → Option DynArrayTriv} (accounted : Accounted history
      ⟨Function.update arrays object (some ⟨grown.data, this.size + 1⟩), grown.memory⟩) :
    ∃ memory, (grown.memory.write grown.data this.size [t]).map (fun memory =>
        (⟨⟨grown.data, this.size + 1⟩, grown.calls, memory⟩ : Effect T)) =
          some ⟨⟨grown.data, this.size + 1⟩, grown.calls, memory⟩ ∧
      Accounted history ⟨Function.update arrays object (some ⟨grown.data, this.size + 1⟩), memory⟩ := by
  have backs : Backs grown.memory ⟨grown.data, this.size + 1⟩ :=
    accounted.backs (Function.update_self ..)
  have last : this.size + [t].length ≤ this.size + 1 := Nat.le_refl _
  obtain ⟨memory, done, counts⟩ := write_backed backs last
  exact ⟨memory, congrArg (Option.map _) done, accounted.sameCounts counts⟩

theorem holds_of_null (null : (state.arrays object).bind DynArrayTriv.data = none) :
    state.holds object = none := by
  rw [State.holds]
  cases found : state.arrays object with
  | none => rfl
  | some array =>
      rw [found, Option.bind_some] at null
      rw [Option.bind_some, DynArrayTriv.block, null, Option.map_none]

/-- An object that is not there has no block, whatever array was cleared. -/
theorem holds_cleared (missing : state.arrays object = none) (memory : Memory T) :
    State.holds ⟨Function.update state.arrays source (some {}), memory⟩ object = none := by
  rw [holds_update]
  by_cases same : object = source
  · rw [same, Function.update_self]
    rfl
  · rw [Function.update_of_ne same, State.holds, missing]
    rfl

/-- The old cells with one more are as many as the array is to have. -/
theorem length_grown {old : List (Option T)} {size : Nat} (length : old.length = size) :
    (old.take (size + 1) ++ List.replicate (size + 1 - old.length) none).length = size + 1 := by
  rw [List.length_append, List.length_take, List.length_replicate]
  omega

/-- Where `reallocate` keeps the block, it goes to the longer array that an append returns. -/
theorem Accounted.regrow {size block : Nat} {old : List (Option T)} (accounted : Accounted history state)
    (found : state.arrays source = some ⟨some block, size⟩) (missing : state.arrays object = none)
    (there : state.memory.cells block = some old) (length : old.length = size) :
    Accounted (history ++ [.closed (block, size), .acquired (block, size + 1)])
      ⟨Function.update (Function.update state.arrays source (some {})) object
          (some ⟨some block, size + 1⟩),
        state.memory.replace block
          (old.take (size + 1) ++ List.replicate (size + 1 - old.length) none)⟩ := by
  have closed := accounted.close found Blocks.counts_deallocate (.inr rfl)
  have free : (state.memory.deallocate block).counts block = none := by
    rw [Blocks.counts_deallocate, Function.update_self]
  have counts : (state.memory.replace block
      (old.take (size + 1) ++ List.replicate (size + 1 - old.length) none)).counts =
        Function.update (state.memory.deallocate block).counts block (some (size + 1)) := by
    rw [Blocks.counts_replace (Blocks.counts_eq_some.mpr ⟨old, there, length⟩), length_grown length,
      Blocks.counts_deallocate, Function.update_idem]
  have acquired := closed.acquire (holds_cleared missing _) free counts
  rwa [List.append_assoc] at acquired

/-- Where it does not, the array has a new block and the old one has been released. -/
theorem Accounted.regrowElsewhere {size block : Nat} {old : List (Option T)}
    (accounted : Accounted history state) (found : state.arrays source = some ⟨some block, size⟩)
    (missing : state.arrays object = none) (length : old.length = size) :
    Accounted (history ++ [.acquired (state.memory.next, size + 1), .closed (block, size)])
      ⟨Function.update (Function.update state.arrays source (some {})) object
          (some ⟨some state.memory.next, size + 1⟩),
        (state.memory.allocate (old.take (size + 1) ++
          List.replicate (size + 1 - old.length) none)).deallocate block⟩ := by
  have apart : source ≠ object := by
    rintro rfl
    rw [found] at missing
    contradiction
  have empty : state.holds object = none := by
    rw [State.holds, missing]
    rfl
  have counts : (state.memory.allocate (old.take (size + 1) ++
      List.replicate (size + 1 - old.length) none)).counts =
        Function.update state.memory.counts state.memory.next (some (size + 1)) := by
    rw [Blocks.counts_allocate, length_grown length]
  have acquired := accounted.acquire empty Blocks.counts_next counts
  have still : Function.update state.arrays object (some ⟨some state.memory.next, size + 1⟩) source =
      some ⟨some block, size⟩ := by
    rw [Function.update_of_ne apart, found]
  have closed := acquired.close still Blocks.counts_deallocate (.inr rfl)
  rwa [List.append_assoc, Function.update_comm apart.symm] at closed

/-- Both answers of `reallocate`, and that to a null pointer, leave blocks that are accounted for. -/
theorem reallocate_accounted {this : DynArrayTriv} {keeps : Bool} (accounted : Accounted history state)
    (found : state.arrays source = some this) (missing : state.arrays object = none) :
    ∃ grown, reallocate nullForNone state.memory keeps this.data (this.size + 1) = some grown ∧
      Accounted (history ++ grown.calls)
        ⟨Function.update (Function.update state.arrays source (some {})) object
          (some ⟨grown.data, this.size + 1⟩), grown.memory⟩ := by
  have backs := accounted.backs found
  obtain ⟨data, size⟩ := this
  cases data with
  | none =>
      have held : state.holds source = none := by
        rw [State.holds, found]
        rfl
      have blank := accounted.blank held (.inr rfl)
      refine ⟨_, rfl, ?_⟩
      rcases allocate_cases nullForNone state.memory (size + 1) with ⟨zero, -⟩ | fresh
      · contradiction
      · rw [fresh]
        exact blank.acquire (holds_cleared missing _) Blocks.counts_next (counts_allocated ..)
  | some block =>
      obtain ⟨old, there, length⟩ := Blocks.counts_eq_some.mp backs
      obtain rfl : old.length = size := length
      refine ⟨_, congrArg (Option.map _) there, ?_⟩
      cases keeps with
      | true => exact accounted.regrow found missing there rfl
      | false => exact accounted.regrowElsewhere found missing rfl

/-- A block that `reallocate` keeps is that of the longer array. -/
theorem reallocate_keeps {grown : Allocated T} {pointer : Option Nat} {memory : Memory T} {block count : Nat}
    (there : pointer = some block) (reallocated : reallocate nullForNone memory true pointer count = some grown) :
    grown.data = pointer := by
  rw [there] at reallocated ⊢
  obtain ⟨old, -, same⟩ := Option.map_eq_some_iff.mp reallocated
  cases same
  rfl

/-- What is appended in place can still be read behind the reallocation, unless it is an element of a block
that was released. -/
theorem refers_reallocated {this : DynArrayTriv} {keeps : Bool} {argument : Argument T} {t : Reference T}
    {grown : Allocated T} (accounted : Accounted history state) (found : state.arrays source = some this)
    (missing : state.arrays object = none) (bound : state.refer argument = some t)
    (permitted : (keeps || argument.apart source) = true)
    (reallocated : reallocate nullForNone state.memory keeps this.data (this.size + 1) = some grown)
    (regrown : Accounted (history ++ grown.calls)
      ⟨Function.update (Function.update state.arrays source (some {})) object
        (some ⟨grown.data, this.size + 1⟩), grown.memory⟩) : Refers grown.memory t := by
  cases argument with
  | value t =>
      cases bound
      trivial
  | element array index =>
      obtain ⟨owner, owns, inside⟩ := Option.bind_eq_some_iff.mp bound
      rw [Option.ite_none_right_eq_some] at inside
      obtain ⟨inside, same⟩ := inside
      cases same
      by_cases own : array = source
      · -- the element is one of the array itself, whose block is kept
        have kept : keeps = true := by simpa [Argument.apart, own] using permitted
        subst own
        obtain rfl := Option.some.inj (owns.symm.trans found)
        rw [kept] at reallocated
        have backs := accounted.backs owns
        obtain ⟨block, there⟩ : ∃ block, owner.data = some block := by
          rw [← Option.ne_none_iff_exists']
          intro null
          rw [accounted.backed array owner owns null] at inside
          contradiction
        have longer := regrown.backs (Function.update_self ..)
        exact ⟨_, longer, reallocate_keeps there reallocated, Nat.lt_succ_of_lt inside⟩
      · have elsewhere : array ≠ object := by
          rintro rfl
          rw [missing] at owns
          contradiction
        have still : Function.update (Function.update state.arrays source (some {})) object
            (some ⟨grown.data, this.size + 1⟩) array = some owner := by
          rw [Function.update_of_ne elsewhere, Function.update_of_ne own, owns]
        exact ⟨owner, regrown.backs still, rfl, inside⟩

theorem appendMove_sound {this : DynArrayTriv} {argument : Argument T} {t : Reference T} {keeps : Bool}
    (accounted : Accounted history state) (found : state.arrays source = some this)
    (bound : state.refer argument = some t) (permitted : (keeps || argument.apart source) = true)
    (created : ({ state with arrays := Function.update state.arrays source (some {}) } : State T).create
      object (appendMove nullForNone state.memory keeps this t) = some (event, after)) :
    Sound history event after := by
  rw [State.create, Option.ite_none_left_eq_some, Option.not_isSome_iff_eq_none] at created
  obtain ⟨missing, created⟩ := created
  have cleared : Function.update state.arrays source (some {}) object = none := missing
  have apart : object ≠ source := by
    rintro rfl
    rw [Function.update_self] at cleared
    contradiction
  have missing : state.arrays object = none := by
    rwa [Function.update_of_ne apart] at cleared
  obtain ⟨grown, reallocated, regrown⟩ := reallocate_accounted accounted found missing
  obtain ⟨value, given⟩ := read_refers
    (refers_reallocated accounted found missing bound permitted reallocated regrown)
  obtain ⟨memory, done, appended⟩ := appended (t := value) regrown
  rw [appendMove, reallocated, Option.bind_some, given, Option.bind_some, done, State.put,
    Option.some.injEq] at created
  obtain ⟨rfl, rfl⟩ := Prod.mk.inj created
  exact ⟨rfl, by simp, appended⟩

theorem elements_update (arrays : Nat → Option DynArrayTriv) (memory : Memory T) (object : Nat)
    (array : DynArrayTriv) :
    State.elements ⟨Function.update arrays object (some array), memory⟩ object =
      memory.read array.data array.size := by
  simp [State.elements]

/-- A copy assignment to an array without a block or of the same size is right. -/
theorem copyAssign_sound {target : Nat} {this other : DynArrayTriv} (accounted : Accounted history state)
    (found : state.arrays target = some this) (source_found : state.arrays source = some other)
    (fits : this.data = none ∨ this.size = other.size) :
    let made := state.put target (copyAssign nullForNone state.memory this other)
    Sound history { made.1 with copied := some (state.elements source, made.2.elements target) }
      made.2 := by
  have backs := accounted.backs source_found
  obtain ⟨elements, read, -⟩ := read_backed backs
  have before : state.elements source = state.memory.read other.data other.size := by
    rw [State.elements, source_found, Option.bind_some]
  have present : (state.elements source).isSome := by
    rw [before, read, Option.isSome_some]
  by_cases same : this.size = other.size
  · obtain ⟨memory, done, counts, copied⟩ := copyAssign_fits (accounted.backs found) backs same
    rw [done]
    refine ⟨rfl, ?_, ?_⟩
    · intro source target same
      cases same
      exact ⟨present, (elements_update ..).trans (copied.trans before.symm)⟩
    · have kept : Function.update state.arrays target (some this) = state.arrays := by
        rw [← found, Function.update_eq_self]
      simp only [State.put, List.append_nil, kept]
      exact accounted.sameCounts counts
  · have null := fits.resolve_right same
    have zero := accounted.backed target this found null
    have empty : state.holds target = none := by
      rw [State.holds, found, Option.bind_some, DynArrayTriv.block, null, Option.map_none]
    have grows : this.size < other.size := by omega
    obtain ⟨effect, done, alike, copied⟩ := copyAssign_grows backs grows
    rw [done]
    refine ⟨rfl, ?_, accounted.create empty alike⟩
    intro source target same
    cases same
    exact ⟨present, (elements_update ..).trans (copied.trans before.symm)⟩

theorem destroy_accounted {this : DynArrayTriv} (accounted : Accounted history state)
    (found : state.arrays object = some this) :
    Accounted (history ++ (this.destruct state.memory).1)
      ⟨Function.update state.arrays object none, (this.destruct state.memory).2⟩ := by
  obtain ⟨data, size⟩ := this
  cases data with
  | none =>
      have empty : state.holds object = none := by
        rw [State.holds, found]
        rfl
      rw [destruct, List.append_nil]
      exact accounted.blank empty (.inl rfl)
  | some block => exact accounted.close found Blocks.counts_deallocate (.inl rfl)

/-- An array that is moved to itself stays as it is. -/
theorem moveSelf_sound (accounted : Accounted history state)
    (moved : state.move object object = some (event, after)) : Sound history event after := by
  obtain ⟨other, found, same⟩ := Option.map_eq_some_iff.mp moved
  obtain ⟨rfl, rfl⟩ := Prod.mk.inj same
  refine ⟨rfl, by simp, ?_⟩
  rw [List.append_nil, Function.update_idem, ← found, Function.update_eq_self]
  exact accounted

/-- An allowed step keeps the accounts. -/
theorem step_sound {action : Action T} (accounted : Accounted history state)
    (permitted : allowed state action = true)
    (stepped : (system T nullForNone).step state action = some (event, after)) :
    Sound history event after := by
  cases action with
  | default object => exact default_sound accounted stepped
  | size object count =>
      exact create_sound accounted rfl ⟨rfl, rfl, rfl⟩ stepped
  | initializerList object elements | span object elements | iterators object elements =>
      obtain ⟨effect, done, alike⟩ := ofElements_alike elements
      exact create_sound accounted done alike stepped
  | copyConstruct object source =>
      obtain ⟨other, found, created⟩ := Option.bind_eq_some_iff.mp stepped
      obtain ⟨effect, done, alike⟩ := copyConstruct_alike (accounted.backs found)
      exact create_sound accounted done alike created
  | append object source t =>
      obtain ⟨this, found, rest⟩ := Option.bind_eq_some_iff.mp stepped
      obtain ⟨reference, bound, created⟩ := Option.bind_eq_some_iff.mp rest
      obtain ⟨effect, done, alike⟩ := append_alike (accounted.backs found) (accounted.refers bound)
      exact create_sound accounted done alike created
  | moveConstruct object source =>
      simp only [system, Option.ite_none_left_eq_some, Option.not_isSome_iff_eq_none] at stepped
      obtain ⟨missing, moved⟩ := stepped
      exact move_sound accounted (by rw [State.holds, missing]; rfl) moved
  | moveAssign target source =>
      simp only [system, Option.ite_none_right_eq_some] at stepped
      rw [allowed, Bool.or_eq_true, beq_iff_eq, Option.isNone_iff_eq_none] at permitted
      rcases permitted with rfl | null
      · exact moveSelf_sound accounted stepped.2
      · exact move_sound accounted (holds_of_null null) stepped.2
  | copyAssign target source =>
      obtain ⟨this, found, rest⟩ := Option.bind_eq_some_iff.mp stepped
      obtain ⟨other, source_found, same⟩ := Option.map_eq_some_iff.mp rest
      obtain ⟨rfl, rfl⟩ := Prod.mk.inj same
      simp only [allowed, found, source_found, Bool.or_eq_true, Option.isNone_iff_eq_none,
        beq_iff_eq] at permitted
      exact copyAssign_sound accounted found source_found permitted
  | appendMove object source t keeps =>
      obtain ⟨this, found, rest⟩ := Option.bind_eq_some_iff.mp stepped
      obtain ⟨reference, bound, created⟩ := Option.bind_eq_some_iff.mp rest
      exact appendMove_sound accounted found bound permitted created
  | destroy object =>
      obtain ⟨this, found, same⟩ := Option.map_eq_some_iff.mp stepped
      obtain ⟨rfl, rfl⟩ := Prod.mk.inj same
      exact ⟨rfl, by simp, destroy_accounted accounted found⟩

end Steps

section Runs

variable {nullForNone : Bool} {history : List (Event T)} {final : State T}

theorem accounted_initial : Accounted [] ({} : State T) where
  owned := Ownership.owned_initial
  counted block count := iff_of_false (by simp [Blocks.counts_empty]) (by simp [State.holds])
  backed := by simp
  kept := by simp

/-- Blocks that have no array any more have been closed as often as acquired. -/
theorem Accounted.settled {calls : List Call} (accounted : Accounted calls final)
    (gone : ∀ object, final.arrays object = none) (resource : Nat × Nat) :
    calls.count (.acquired resource) = calls.count (.closed resource) := by
  obtain ⟨held, tracked, holder⟩ := accounted.owned.tracked resource
  have unheld : held = false := by
    rw [← Bool.not_eq_true, holder]
    rintro ⟨object, holds⟩
    rw [State.holds, gone object] at holds
    contradiction
  have counts := Ownership.track_counts tracked
  rw [unheld, List.count_eq_zero.mpr (accounted.kept resource)] at counts
  exact counts

/-- In every run of which each step meets the condition, the accounts are right. -/
theorem run_balances
    (run : ((system T nullForNone).restrict fun state action => allowed state action = true).Run {}
      history final) : Accounts history final := by
  have kept := run.invariant
    (fun history state => (∀ event ∈ history, event.outside = false ∧
        ∀ source target, event.copied = some (source, target) → source.isSome ∧ target = source) ∧
      Accounted (history.flatMap Event.calls) state)
    ⟨by simp, accounted_initial⟩ ?_
  · obtain ⟨each, accounted⟩ := kept
    exact ⟨fun event member => (each event member).1, fun event member => (each event member).2,
      accounted.owned.tracked, accounted.settled⟩
  · intro history before action event after holds step
    obtain ⟨each, accounted⟩ := holds
    obtain ⟨permitted, stepped⟩ := StepSystem.restrict_step.mp step
    have sound := step_sound accounted permitted stepped
    constructor
    · intro other member
      rcases List.mem_append.mp member with member | member
      · exact each other member
      · obtain rfl := List.mem_singleton.mp member
        exact ⟨sound.inside, sound.copied⟩
    · rw [List.flatMap_append, List.flatMap_singleton]
      exact sound.accounted

/-- An array and a copy of it, which are assigned, appended to and destroyed. -/
theorem run_balances_small : ∃ history final,
    ((system Nat true).restrict fun state action => allowed state action = true).Run {} history final ∧
      final.arrays 0 = none ∧ Accounts history final := by
  have executed :
      ((system Nat true).restrict fun state action => allowed state action = true).execute {}
        [.initializerList 0 [1, 2], .copyConstruct 1 0, .copyAssign 0 1, .appendMove 2 1 (.element 0 1) false,
          .destroy 0] = some (_, _) := rfl
  have run := StepSystem.run_of_execute _ executed
  exact ⟨_, _, run, rfl, run_balances run⟩

/-- A copy assignment leaves one of two elements, and the block of two is deallocated as one of one. -/
theorem run_shrinks :
    ¬ ∀ (actions : List (Action Nat)) history final,
      (system Nat false).execute {} actions = some (history, final) → Accounts history final := by
  intro always
  have executed : (system Nat false).execute {}
      [.initializerList 0 [1, 2], .initializerList 1 [3], .copyAssign 0 1, .destroy 0] =
        some (_, _) := rfl
  obtain ⟨held, tracked, -⟩ := (always _ _ _ executed).tracked (0, 1)
  have stopped : Ownership.track (0, 1) false
      [.acquired (0, 2), .acquired (1, 1), .closed (0, 1)] = none := by decide
  exact absurd (stopped.symm.trans tracked) (by simp)

end Runs

end DynArrayTriv

end MartCommon.Experimental
