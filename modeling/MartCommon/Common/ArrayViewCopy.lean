import MartCommon.Common.ArrayView
import MartCommon.Library.Cells

namespace MartCommon.Common

open Library

theorem Pointer.add_add (pointer : Pointer) (first second : Nat) :
    (pointer.add first).add second = pointer.add (first + second) := by
  simp only [Pointer.add, Nat.add_assoc]

theorem Pointer.add_injective (pointer : Pointer) : Function.Injective pointer.add := by
  intro first second same
  simpa [Pointer.add] using same

namespace ArrayView

variable {T : Type*}

/-- The elements of the arrays that are there -/
abbrev Memory (T : Type*) := Cells Pointer T

/-- `std::copy_n( first, count, result )` -/
def copyN (memory : Memory T) (first : Pointer) (count : SizeT) (result : Pointer) : Option (Memory T) :=
  Cells.copy first.add result.add count.toNat memory

/-- `detail::CopyRetType<T>` -/
structure CopyRetType where
  copied : ArrayView := {}
  freeSpace : ArrayView := {}
  deriving DecidableEq, Repr

/-- `std::min` returns its first argument where both are equal. -/
def minSize (left right : SizeT) : SizeT := if right < left then right else left

/-- `copy_some( src, dest )`. There is no result where it terminates or accesses an element that is not
there. -/
def copySome (memory : Memory T) (src dest : ArrayView) : Option (CopyRetType × Memory T) :=
  let cnt := minSize src.size dest.size
  (copyN memory src.data cnt dest.data).bind fun after =>
    (dest.subview 0 cnt).bind fun copied =>
      (dest.subviewFrom cnt).map fun freeSpace => (⟨copied, freeSpace⟩, after)

/-- `copy( src, dest )` with or without assertions -/
def copy (assertions : Bool) (memory : Memory T) (src dest : ArrayView) :
    Option (CopyRetType × Memory T) :=
  if assertions && src.size > dest.size then none
  else if src.size > dest.size then some ({}, memory)
  else
    (copyN memory src.data src.size dest.data).bind fun after =>
      (dest.subview 0 src.size).bind fun copied =>
        (dest.subviewFrom src.size).map fun freeSpace => (⟨copied, freeSpace⟩, after)

/-- A buffer that is filled from sources, of which these are left. -/
structure Filling (T : Type*) where
  sources : List ArrayView
  freeSpace : ArrayView
  memory : Memory T

/-- `copy_some` is called with the next source and the free space, and what it has copied is taken from
the source. -/
def fill (filling : Filling T) : Option (Filling T) :=
  match filling.sources with
  | [] => some filling
  | src :: rest =>
      (copySome filling.memory src filling.freeSpace).bind fun (ret, after) =>
        (src.subviewFrom ret.copied.size).map fun behind =>
          ⟨if behind.empty then rest else behind :: rest, ret.freeSpace, after⟩

/-- Calls in a row -/
def fills : Nat → Filling T → Option (Filling T)
  | 0, filling => some filling
  | count + 1, filling => (fills count filling).bind fill

/-- The view from an offset to the end -/
def beyond (view : ArrayView) (offset : SizeT) : ArrayView :=
  ⟨view.data.add offset.toNat, view.size - offset⟩

/-- No element of one view is an element of the other. -/
def Disjoint (left right : ArrayView) : Prop :=
  ∀ i < left.size.toNat, ∀ j < right.size.toNat, left.data.add i ≠ right.data.add j

/-- Elements can be copied between views: they are there, and the views do not overlap. -/
structure Copyable (memory : Memory T) (src dest : ArrayView) : Prop where
  readable : none ∉ src.elements memory
  writable : none ∉ dest.elements memory
  disjoint : Disjoint src dest

/-- The elements outside of a view are the same in both memories. -/
def SameOutside (view : ArrayView) (memory after : Memory T) : Prop :=
  ∀ pointer, (∀ i < view.size.toNat, pointer ≠ view.data.add i) → after pointer = memory pointer

/-- The first elements of the source are copied, and nothing else changes. The views partition the
destination behind them. -/
structure Copied (memory : Memory T) (src dest : ArrayView) (ret : CopyRetType) (after : Memory T) :
    Prop where
  count : ret.copied.size.toNat = min src.size.toNat dest.size.toNat
  front : ret.copied.data = dest.data
  back : ret.freeSpace.data = dest.data.add ret.copied.size.toNat
  sizes : ret.copied.size.toNat + ret.freeSpace.size.toNat = dest.size.toNat
  image : ret.copied.elements after = (src.elements memory).take ret.copied.size.toNat
  unchanged : SameOutside ret.copied memory after

variable {memory after : Memory T} {view src dest : ArrayView}

theorem length_elements (view : ArrayView) (memory : Memory T) :
    (view.elements memory).length = view.size.toNat := by
  rw [elements, List.length_map, List.length_range]

theorem none_notMem_elements :
    none ∉ view.elements memory ↔ ∀ i < view.size.toNat, (memory (view.data.add i)).isSome := by
  simp [elements, Option.isSome_iff_ne_none]

theorem toNat_minSize (left right : SizeT) :
    (minSize left right).toNat = min left.toNat right.toNat := by
  unfold minSize
  split
  · rename_i less
    rw [Nat.min_eq_right (Nat.le_of_lt less)]
  · rename_i notLess
    rw [Nat.min_eq_left (Nat.le_of_not_lt notLess)]

/-- Views that start and end alike in both memories have the same elements. -/
theorem elements_congr (same : ∀ i < view.size.toNat, after (view.data.add i) = memory (view.data.add i)) :
    view.elements after = view.elements memory := by
  apply List.map_congr_left
  intro i inside
  exact same i (List.mem_range.mp inside)

/-- What both functions do once they know the number of elements. -/
theorem copied_of_count (copyable : Copyable memory src dest) {cnt : SizeT}
    (count : cnt.toNat = min src.size.toNat dest.size.toNat) :
    ∃ after, copyN memory src.data cnt dest.data = some after ∧
      dest.subview 0 cnt = some ⟨dest.data, cnt⟩ ∧
      dest.subviewFrom cnt = some ⟨dest.data.add cnt.toNat, dest.size - cnt⟩ ∧
      Copied memory src dest ⟨⟨dest.data, cnt⟩, ⟨dest.data.add cnt.toNat, dest.size - cnt⟩⟩ after := by
  have inSource : cnt.toNat ≤ src.size.toNat := count ▸ Nat.min_le_left ..
  have within : cnt.toNat ≤ dest.size.toNat := count ▸ Nat.min_le_right ..
  have apart : Function.Injective dest.data.add := dest.data.add_injective
  have ran : copyN memory src.data cnt dest.data =
      some (memory.copied src.data.add dest.data.add cnt.toNat) := by
    apply Cells.copy_eq apart
    · exact fun i before => none_notMem_elements.mp copyable.readable i (by omega)
    · exact fun i before => none_notMem_elements.mp copyable.writable i (by omega)
    · exact fun i before j earlier => copyable.disjoint i (by omega) j (by omega)
  refine ⟨_, ran, subview_front within, subviewFrom_eq cnt, count, rfl, rfl, ?_, ?_, ?_⟩
  · rw [BitVec.toNat_sub_of_le (BitVec.le_def.mpr within)]
    exact Nat.add_sub_cancel' within
  · rw [elements, elements, ← List.map_take, List.take_range, Nat.min_eq_left inSource]
    apply List.map_congr_left
    intro i before
    exact Cells.copied_target apart (List.mem_range.mp before)
  · exact fun pointer outside => Cells.copied_other outside

theorem copySome_copies (copyable : Copyable memory src dest) :
    ∃ ret after, copySome memory src dest = some (ret, after) ∧ Copied memory src dest ret after := by
  obtain ⟨after, ran, copied, freeSpace, copies⟩ :=
    copied_of_count copyable (toNat_minSize src.size dest.size)
  refine ⟨_, after, ?_, copies⟩
  rw [copySome, ran, Option.bind_some, copied, Option.bind_some, freeSpace, Option.map_some]

theorem copy_copies (assertions : Bool) (copyable : Copyable memory src dest)
    (fits : src.size.toNat ≤ dest.size.toNat) :
    ∃ ret after, copy assertions memory src dest = some (ret, after) ∧
      Copied memory src dest ret after := by
  have small : ¬ src.size > dest.size := Nat.not_lt.mpr fits
  obtain ⟨after, ran, copied, freeSpace, copies⟩ :=
    copied_of_count copyable (Nat.min_eq_left fits).symm
  refine ⟨_, after, ?_, copies⟩
  rw [copy, decide_eq_false small, Bool.and_false, if_neg Bool.false_ne_true, if_neg small, ran,
    Option.bind_some, copied, Option.bind_some, freeSpace, Option.map_some]

theorem copy_too_large (large : dest.size.toNat < src.size.toNat) :
    copy false memory src dest = some ({}, memory) := by
  have large : src.size > dest.size := large
  rw [copy, Bool.false_and, if_neg Bool.false_ne_true, if_pos large]

section Filling

variable {ret : CopyRetType} {offset : SizeT}

/-- The elements of views, one view after the other -/
def contents (memory : Memory T) (views : List ArrayView) : List (Option T) :=
  views.flatMap fun view => view.elements memory

/-- The first elements of the sources are at the front of the destination, the others are left, and
nothing else has changed. -/
structure Filled (memory : Memory T) (sources : List ArrayView) (dest : ArrayView) (done : SizeT)
    (filling : Filling T) : Prop where
  within : done.toNat ≤ dest.size.toNat
  freeSpace : filling.freeSpace = dest.beyond done
  left : contents filling.memory filling.sources = (contents memory sources).drop done.toNat
  written : dest.elements filling.memory =
    (contents memory sources).take done.toNat ++ (dest.elements memory).drop done.toNat
  unchanged : SameOutside dest memory filling.memory

theorem elements_front (memory : Memory T) (within : offset.toNat ≤ view.size.toNat) :
    elements ⟨view.data, offset⟩ memory = (view.elements memory).take offset.toNat := by
  have length : (elements ⟨view.data, offset⟩ memory).length = offset.toNat := length_elements _ memory
  rw [← elements_split memory within, List.take_left' length]

theorem elements_beyond (memory : Memory T) (within : offset.toNat ≤ view.size.toNat) :
    (view.beyond offset).elements memory = (view.elements memory).drop offset.toNat := by
  have length : (elements ⟨view.data, offset⟩ memory).length = offset.toNat := length_elements _ memory
  rw [← elements_split memory within, List.drop_left' length]
  rfl

theorem size_beyond (within : offset.toNat ≤ view.size.toNat) :
    (view.beyond offset).size.toNat = view.size.toNat - offset.toNat :=
  BitVec.toNat_sub_of_le (BitVec.le_def.mpr within)

/-- What is copied is at the front of the destination. -/
theorem Copied.whole (copies : Copied memory src dest ret after) :
    dest.elements after = (src.elements memory).take ret.copied.size.toNat ++
      (dest.elements memory).drop ret.copied.size.toNat := by
  have within : ret.copied.size.toNat ≤ dest.size.toNat := by
    rw [copies.count]
    exact Nat.min_le_right ..
  have same : ret.copied = ⟨dest.data, ret.copied.size⟩ := by rw [← copies.front]
  have front : elements ⟨dest.data, ret.copied.size⟩ after =
      (src.elements memory).take ret.copied.size.toNat := by
    rw [← same]
    exact copies.image
  have rest : (dest.beyond ret.copied.size).elements after =
      (dest.beyond ret.copied.size).elements memory := by
    apply elements_congr
    intro i _
    apply copies.unchanged
    intro j before equal
    rw [copies.front, beyond, Pointer.add_add] at equal
    have := dest.data.add_injective equal
    omega
  rw [← elements_split after within, front, ← elements_beyond memory within, ← rest]
  rfl

/-- What is copied behind the front of a view is there, and the front is as before. -/
theorem Copied.behind (within : offset.toNat ≤ dest.size.toNat)
    (copies : Copied memory src (dest.beyond offset) ret after) :
    dest.elements after =
      (dest.elements memory).take offset.toNat ++
        ((src.elements memory).take ret.copied.size.toNat ++
          (dest.elements memory).drop (offset.toNat + ret.copied.size.toNat)) := by
  have front : elements ⟨dest.data, offset⟩ after = elements ⟨dest.data, offset⟩ memory := by
    apply elements_congr
    intro i inside
    apply copies.unchanged
    intro j before equal
    rw [copies.front, beyond, Pointer.add_add] at equal
    have same := dest.data.add_injective equal
    have inside : i < offset.toNat := inside
    omega
  have back := copies.whole
  rw [elements_beyond memory within, List.drop_drop] at back
  rw [← elements_split after within, front, elements_front memory within, ← back]
  rfl

/-- The elements of a view that is apart from the destination do not change. -/
theorem Disjoint.elements_eq (disjoint : Disjoint view dest) (unchanged : SameOutside dest memory after) :
    view.elements after = view.elements memory := by
  apply elements_congr
  intro i inside
  apply unchanged
  intro j before
  exact disjoint i inside j before

theorem SameOutside.of_rest
    (inside : view.size.toNat + offset.toNat ≤ dest.size.toNat)
    (front : view.data = dest.data.add offset.toNat) (unchanged : SameOutside view memory after) :
    SameOutside dest memory after := by
  intro pointer outside
  apply unchanged
  intro i before
  rw [front, Pointer.add_add]
  exact outside (offset.toNat + i) (by omega)

theorem SameOutside.trans {middle : Memory T} (first : SameOutside view memory middle)
    (second : SameOutside view middle after) : SameOutside view memory after :=
  fun pointer outside => (second pointer outside).trans (first pointer outside)

/-- Rests of copyable views are copyable. -/
theorem Copyable.rest (copyable : Copyable memory src dest) (within : offset.toNat ≤ dest.size.toNat) :
    Copyable memory src (dest.beyond offset) where
  readable := copyable.readable
  writable member := copyable.writable (by
    rw [elements_beyond memory within] at member
    exact List.mem_of_mem_drop member)
  disjoint i inSource j inRest := by
    have inRest : j < dest.size.toNat - offset.toNat := size_beyond within ▸ inRest
    rw [beyond, Pointer.add_add]
    exact copyable.disjoint i inSource (offset.toNat + j) (by omega)

theorem Copyable.behind (copyable : Copyable memory src dest) (within : offset.toNat ≤ src.size.toNat) :
    Copyable memory (src.beyond offset) dest where
  readable member := copyable.readable (by
    rw [elements_beyond memory within] at member
    exact List.mem_of_mem_drop member)
  writable := copyable.writable
  disjoint i inRest j inDest := by
    have inRest : i < src.size.toNat - offset.toNat := size_beyond within ▸ inRest
    rw [beyond, Pointer.add_add]
    exact copyable.disjoint (offset.toNat + i) (by omega) j inDest

/-- What a filling is about: its sources can be copied into the whole destination, of which the front has
been filled. -/
structure Invariant (memory : Memory T) (sources : List ArrayView) (dest : ArrayView) (done : SizeT)
    (filling : Filling T) : Prop extends Filled memory sources dest done filling where
  copyable : ∀ src ∈ filling.sources, Copyable filling.memory src dest

theorem contents_cons (memory : Memory T) (view : ArrayView) (views : List ArrayView) :
    contents memory (view :: views) = view.elements memory ++ contents memory views :=
  List.flatMap_cons

theorem contents_congr {views : List ArrayView}
    (same : ∀ view ∈ views, view.elements after = view.elements memory) :
    contents after views = contents memory views :=
  List.flatMap_congr same

/-- A source without elements can be left out. -/
theorem contents_unless_empty (memory : Memory T) (view : ArrayView) (views : List ArrayView) :
    contents memory (if view.empty then views else view :: views) = contents memory (view :: views) := by
  split
  · rename_i empty
    have nothing : view.elements memory = [] := by
      rw [← List.length_eq_zero_iff, length_elements, eq_of_beq empty]
      rfl
    rw [contents_cons, nothing, List.nil_append]
  · rfl

theorem Filled.length_le {sources : List ArrayView} {done : SizeT} {filling : Filling T}
    (filled : Filled memory sources dest done filling) : done.toNat ≤ (contents memory sources).length := by
  have length := congrArg List.length filled.written
  have within := filled.within
  rw [List.length_append, List.length_take, List.length_drop, length_elements, length_elements] at length
  omega

theorem fill_cons {sources : List ArrayView} (ran : copySome memory src dest = some (ret, after)) :
    fill ⟨src :: sources, dest, memory⟩ =
      some ⟨if (src.beyond ret.copied.size).empty then sources else src.beyond ret.copied.size :: sources,
        ret.freeSpace, after⟩ := by
  simp only [fill, ran, Option.bind_some, subviewFrom_eq, Option.map_some]
  rfl

section Rest

variable (within : offset.toNat ≤ dest.size.toNat)
  (copies : Copied memory src (dest.beyond offset) ret after)

include within copies

theorem Copied.count_beyond :
    ret.copied.size.toNat = min src.size.toNat (dest.size.toNat - offset.toNat) := by
  rw [copies.count, size_beyond within]

theorem Copied.toNat_add : (offset + ret.copied.size).toNat = offset.toNat + ret.copied.size.toNat := by
  have count := copies.count_beyond within
  have bound := dest.size.isLt
  rw [BitVec.toNat_add, Nat.mod_eq_of_lt (by omega)]

/-- The free space begins where the copied elements end. -/
theorem Copied.freeSpace_eq : ret.freeSpace = dest.beyond (offset + ret.copied.size) := by
  have count := copies.count_beyond within
  have sum := copies.toNat_add within
  have sizes := copies.sizes
  have data : ret.freeSpace.data = dest.data.add (offset + ret.copied.size).toNat := by
    rw [copies.back, sum, beyond, Pointer.add_add]
  have size : ret.freeSpace.size = (dest.beyond (offset + ret.copied.size)).size := by
    apply BitVec.eq_of_toNat_eq
    rw [size_beyond (by omega)]
    rw [size_beyond within] at sizes
    omega
  exact (ArrayView.mk.injEq ..).mpr ⟨data, size⟩

theorem Copied.sameOutside : SameOutside dest memory after := by
  have count := copies.count_beyond within
  exact SameOutside.of_rest (by omega) copies.front copies.unchanged

/-- What could be copied before still can. -/
theorem Copied.copyable (first : Copyable memory src dest) (copyable : Copyable memory view dest) :
    Copyable after view dest where
  readable := by
    rw [copyable.disjoint.elements_eq (copies.sameOutside within)]
    exact copyable.readable
  writable := by
    rw [copies.behind within, List.mem_append, List.mem_append]
    rintro (member | member | member)
    · exact first.writable (List.mem_of_mem_take member)
    · exact first.readable (List.mem_of_mem_take member)
    · exact first.writable (List.mem_of_mem_drop member)
  disjoint := copyable.disjoint

/-- The source or the free space is used up. -/
theorem Copied.used_up :
    (src.beyond ret.copied.size).empty = true ∨ (offset + ret.copied.size).toNat = dest.size.toNat := by
  have count := copies.count_beyond within
  by_cases fits : src.size.toNat ≤ dest.size.toNat - offset.toNat
  · refine .inl (beq_of_eq (BitVec.eq_of_toNat_eq ?_))
    rw [size_beyond (by omega)]
    change _ = 0
    omega
  · rw [copies.toNat_add within]
    exact .inr (by omega)

/-- What is left are the elements of the sources without those that are copied. -/
theorem Copied.left {sources : List ArrayView}
    (copyable : ∀ view ∈ src :: sources, Copyable memory view dest) :
    contents after
        (if (src.beyond ret.copied.size).empty then sources else src.beyond ret.copied.size :: sources) =
      (contents memory (src :: sources)).drop ret.copied.size.toNat := by
  have count := copies.count_beyond within
  have inSource : ret.copied.size.toNat ≤ src.size.toNat := by omega
  have kept : ∀ view ∈ src :: sources, view.elements after = view.elements memory :=
    fun view member => (copyable view member).disjoint.elements_eq (copies.sameOutside within)
  have same : contents after sources = contents memory sources :=
    contents_congr fun view member => kept view (List.mem_cons_of_mem _ member)
  have length : ret.copied.size.toNat ≤ (src.elements memory).length := by
    rw [length_elements]
    exact inSource
  rw [contents_unless_empty, contents_cons, elements_beyond after inSource, same,
    kept src List.mem_cons_self, contents_cons, List.drop_append_of_le_length length]

end Rest

/-- The front of what is filled becomes longer. -/
theorem Filled.append {sources : List ArrayView} {done : SizeT} {before : Memory T} {free : ArrayView}
    {rest : List ArrayView}
    (filled : Filled memory sources dest done ⟨src :: rest, free, before⟩) {count : Nat}
    (inSource : count ≤ src.size.toNat) :
    (dest.elements before).take done.toNat ++
        ((src.elements before).take count ++ (dest.elements before).drop (done.toNat + count)) =
      (contents memory sources).take (done.toNat + count) ++
        (dest.elements memory).drop (done.toNat + count) := by
  have length : ((contents memory sources).take done.toNat).length = done.toNat :=
    List.length_take_of_le filled.length_le
  have next : ((contents memory sources).drop done.toNat).take count = (src.elements before).take count := by
    rw [← filled.left, contents_cons, List.take_append_of_le_length]
    rw [length_elements]
    exact inSource
  have front : (dest.elements before).take done.toNat = (contents memory sources).take done.toNat := by
    rw [filled.written, List.take_left' length]
  have back : (dest.elements before).drop (done.toNat + count) =
      (dest.elements memory).drop (done.toNat + count) := by
    rw [← List.drop_drop, filled.written, List.drop_left' length, List.drop_drop]
  rw [front, back, ← next, ← List.append_assoc, ← List.take_add]

/-- A call with the next source appends as many of its elements as fit. Then the source or the free space
is used up. -/
theorem Invariant.fill {sources : List ArrayView} {done : SizeT} {filling : Filling T}
    (invariant : Invariant memory sources dest done filling) :
    ∃ next after, ArrayView.fill filling = some after ∧ Invariant memory sources dest next after ∧
      done.toNat ≤ next.toNat ∧
        (next.toNat = dest.size.toNat ∨ after.sources.length ≤ filling.sources.length - 1) := by
  obtain ⟨remaining, freeSpace, before⟩ := filling
  obtain ⟨filled, copyable⟩ := invariant
  cases remaining with
  | nil => exact ⟨done, _, rfl, ⟨filled, copyable⟩, Nat.le_refl _, .inr (Nat.zero_le _)⟩
  | cons src rest =>
      have within := filled.within
      obtain rfl : freeSpace = dest.beyond done := filled.freeSpace
      have first : Copyable before src dest := copyable src List.mem_cons_self
      obtain ⟨ret, after, ran, copies⟩ := copySome_copies (first.rest within)
      have count := copies.count_beyond within
      have sum := copies.toNat_add within
      have inSource : ret.copied.size.toNat ≤ src.size.toNat := by omega
      have outside := copies.sameOutside within
      refine ⟨done + ret.copied.size, _, fill_cons ran, ⟨⟨by omega, copies.freeSpace_eq within, ?_, ?_,
        filled.unchanged.trans outside⟩, ?_⟩, by omega, ?_⟩
      · have left : contents before (src :: rest) = _ := filled.left
        rw [copies.left within copyable, left, List.drop_drop, sum]
      · rw [sum, ← filled.append inSource]
        exact copies.behind within
      · intro view member
        have here : view = src.beyond ret.copied.size ∨ view ∈ rest := by
          split at member
          · exact .inr member
          · exact List.mem_cons.mp member
        rcases here with rfl | member
        · exact copies.copyable within first (first.behind inSource)
        · exact copies.copyable within first (copyable view (List.mem_cons_of_mem _ member))
      · rcases copies.used_up within with empty | full
        · exact .inr (Nat.le_of_eq (congrArg List.length (if_pos empty)))
        · exact .inl full

/-- Calls in a row append the sources in order, until these or the free space are used up. -/
theorem Invariant.fills {sources : List ArrayView} (copyable : ∀ src ∈ sources, Copyable memory src dest)
    (count : Nat) :
    ∃ done filling, ArrayView.fills count ⟨sources, dest, memory⟩ = some filling ∧
      Invariant memory sources dest done filling ∧
        (done.toNat = dest.size.toNat ∨ filling.sources.length ≤ sources.length - count) := by
  induction count with
  | zero =>
      refine ⟨0, _, rfl, ⟨⟨Nat.zero_le _, ?_, rfl, rfl, fun _ _ => rfl⟩, copyable⟩, .inr (Nat.le_refl _)⟩
      exact (ArrayView.mk.injEq ..).mpr ⟨rfl, (BitVec.sub_zero _).symm⟩
  | succ count ih =>
      obtain ⟨done, filling, ran, invariant, used⟩ := ih
      obtain ⟨next, after, filled, invariant, behind, progress⟩ := invariant.fill
      have within := invariant.within
      refine ⟨next, after, by rw [ArrayView.fills, ran, Option.bind_some, filled], invariant, ?_⟩
      omega

end Filling

/-- Views are copied as far as they fit, one after the other. -/
theorem views_copied (memory : Memory T) (dest : ArrayView) :
    (∀ src, Copyable memory src dest → ∃ ret after,
      copySome memory src dest = some (ret, after) ∧ Copied memory src dest ret after) ∧
    (∀ sources, (∀ src ∈ sources, Copyable memory src dest) → ∀ count, ∃ done filling,
      fills count ⟨sources, dest, memory⟩ = some filling ∧ Filled memory sources dest done filling ∧
        (sources.length ≤ count → filling.sources = [] ∨ filling.freeSpace.empty = true)) ∧
    (∀ assertions src, Copyable memory src dest → src.size.toNat ≤ dest.size.toNat → ∃ ret after,
      copy assertions memory src dest = some (ret, after) ∧ Copied memory src dest ret after) ∧
    ∀ src, dest.size.toNat < src.size.toNat → copy false memory src dest = some ({}, memory) := by
  refine ⟨fun src => copySome_copies, ?_, fun assertions src => copy_copies assertions,
    fun src => copy_too_large⟩
  intro sources copyable count
  obtain ⟨done, filling, ran, invariant, used⟩ := Invariant.fills copyable count
  refine ⟨done, filling, ran, invariant.toFilled, fun enough => ?_⟩
  rcases used with full | left
  · refine .inr (beq_of_eq (BitVec.eq_of_toNat_eq ?_))
    rw [invariant.freeSpace, size_beyond invariant.within, full]
    exact Nat.sub_self _
  · exact .inl (List.length_eq_zero_iff.mp (by omega))

/-- An array of two elements, one of three elements and one of four -/
def threeArrays : Memory Nat := fun pointer =>
  match pointer with
  | ⟨some 0, index⟩ => [10, 11][index]?
  | ⟨some 1, index⟩ => [20, 21, 22][index]?
  | ⟨some 2, index⟩ => [0, 0, 0, 0][index]?
  | _ => none

/-- The first two arrays are copied to the third one. One element is left. -/
theorem views_copied_three :
    let sources : List ArrayView := [⟨⟨some 0, 0⟩, 2⟩, ⟨⟨some 1, 0⟩, 3⟩]
    let dest : ArrayView := ⟨⟨some 2, 0⟩, 4⟩
    ∃ done filling, fills 2 ⟨sources, dest, threeArrays⟩ = some filling ∧
      Filled threeArrays sources dest done filling ∧
        (sources.length ≤ 2 → filling.sources = [] ∨ filling.freeSpace.empty = true) := by
  intro sources dest
  apply (views_copied threeArrays dest).2.1 sources
  intro src member
  rcases List.mem_cons.mp member with rfl | member
  · exact ⟨by decide, by decide, by unfold Disjoint; decide⟩
  · rw [List.mem_singleton.mp member]
    exact ⟨by decide, by decide, by unfold Disjoint; decide⟩

end ArrayView

end MartCommon.Common
