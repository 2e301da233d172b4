import Mathlib.Data.BitVec
import Mathlib.Order.Lattice

namespace MartCommon.Common

/-- `std::size_t`, whose arithmetic wraps around. -/
abbrev SizeT := BitVec 64

/-- A pointer counts elements from the start of an array, or from the null pointer. -/
structure Pointer where
  array : Option Nat := none
  index : Nat := 0
  deriving DecidableEq, Repr

def Pointer.add (pointer : Pointer) (offset : Nat) : Pointer :=
  { pointer with index := pointer.index + offset }

/-- `ArrayView<T>` with the members `_data` and `_size`. The default one is null. -/
structure ArrayView where
  data : Pointer := {}
  size : SizeT := 0
  deriving DecidableEq, Repr

namespace ArrayView

variable (view : ArrayView)

def empty : Bool := view.size == 0

/-- `_terminateIfOffsetOutOfRange` returns or calls `std::terminate`. -/
def terminateIfOffsetOutOfRange (idx : SizeT) : Option Unit :=
  if idx > view.size then none else some ()

/-- `_terminateIfInvalidSubview` adds in `std::size_t`. -/
def terminateIfInvalidSubview (offset count : SizeT) : Option Unit :=
  if offset + count > view.size then none else some ()

/-- `max_subview( offset, count )` -/
def maxSubview (offset count : SizeT) : ArrayView :=
  if offset > view.size then {}
  else ⟨view.data.add offset.toNat, if view.size - offset < count then view.size - offset else count⟩

/-- `subview( offset, count )` -/
def subview (offset count : SizeT) : Option ArrayView := do
  view.terminateIfInvalidSubview offset count
  return ⟨view.data.add offset.toNat, count⟩

/-- `subview( offset )` -/
def subviewFrom (offset : SizeT) : Option ArrayView := do
  view.terminateIfInvalidSubview offset (view.size - offset)
  return ⟨view.data.add offset.toNat, view.size - offset⟩

/-- `max_subview( offset )` -/
def maxSubviewFrom (offset : SizeT) : ArrayView :=
  if offset > view.size then {} else ⟨view.data.add offset.toNat, view.size - offset⟩

/-- `split( offset )` -/
def split (offset : SizeT) : Option (ArrayView × ArrayView) := do
  view.terminateIfOffsetOutOfRange offset
  return (⟨view.data, offset⟩, ⟨view.data.add offset.toNat, view.size - offset⟩)

/-- What `begin` to `end` go through. -/
def elements {T : Type*} (memory : Pointer → T) : List T :=
  (List.range view.size.toNat).map fun index => memory (view.data.add index)

/-- A call of a function that makes views out of a view. -/
inductive Call where
  | subview (offset count : SizeT)
  | subviewFrom (offset : SizeT)
  | maxSubview (offset count : SizeT)
  | maxSubviewFrom (offset : SizeT)
  | split (offset : SizeT)

/-- The views that a call returns, unless it terminates. -/
def Call.run : Call → Option (List ArrayView)
  | .subview offset count => (view.subview offset count).map fun part => [part]
  | .subviewFrom offset => (view.subviewFrom offset).map fun part => [part]
  | .maxSubview offset count => some [view.maxSubview offset count]
  | .maxSubviewFrom offset => some [view.maxSubviewFrom offset]
  | .split offset => (view.split offset).map fun parts => [parts.1, parts.2]

/-- A part is the default view, or it begins inside the view and does not end behind it. -/
def Contains (part : ArrayView) : Prop :=
  part = {} ∨ ∃ start, part.data = view.data.add start ∧ start + part.size.toNat ≤ view.size.toNat

/-- What the caller asks for beyond the bounds: all elements that a `subview` names, or no return. -/
def Call.Answered : Call → Prop
  | .subview offset count =>
      view.subview offset count =
        if offset.toNat ≤ view.size.toNat ∧ count.toNat ≤ view.size.toNat - offset.toNat then
          some ⟨view.data.add offset.toNat, count⟩
        else none
  | .subviewFrom offset => view.size.toNat < offset.toNat → view.subviewFrom offset = none
  | _ => True

/-- A call is in bounds when all its views are parts of the view and it is answered as asked. -/
structure Call.InBounds (call : Call) : Prop where
  contained : ∀ parts, call.run view = some parts → ∀ part ∈ parts, view.Contains part
  answered : call.Answered view

/-- The condition under which the check of `subview` sees a violation: the sum does not wrap around to
a value within the size, and a single offset is within the size. -/
def Call.Checked : Call → Prop
  | .subview offset count =>
      offset.toNat + count.toNat < 2 ^ 64 ∨ view.size.toNat < offset.toNat + count.toNat - 2 ^ 64
  | .subviewFrom offset => offset.toNat ≤ view.size.toNat
  | _ => True

variable {view}

/-- A view that starts at an offset within the size and ends with the size is a part. -/
theorem contains_add {offset count : SizeT} (ends : offset.toNat + count.toNat ≤ view.size.toNat) :
    view.Contains ⟨view.data.add offset.toNat, count⟩ :=
  .inr ⟨offset.toNat, rfl, ends⟩

/-- The rest behind an offset within the size is a part. -/
theorem contains_rest {offset : SizeT} (within : offset.toNat ≤ view.size.toNat) :
    view.Contains ⟨view.data.add offset.toNat, view.size - offset⟩ := by
  apply contains_add
  rw [BitVec.toNat_sub_of_le (BitVec.le_def.mpr within)]
  omega

theorem contains_maxSubview (offset count : SizeT) :
    view.Contains (view.maxSubview offset count) := by
  unfold maxSubview
  split
  · exact .inl rfl
  · rename_i within
    have within : offset.toNat ≤ view.size.toNat := Nat.le_of_not_lt within
    split
    · exact contains_rest within
    · rename_i small
      apply contains_add
      rw [BitVec.lt_def, BitVec.toNat_sub_of_le (BitVec.le_def.mpr within)] at small
      omega

theorem contains_maxSubviewFrom (offset : SizeT) :
    view.Contains (view.maxSubviewFrom offset) := by
  unfold maxSubviewFrom
  split
  · exact .inl rfl
  · rename_i within
    exact contains_rest (Nat.le_of_not_lt within)

theorem contains_split {offset : SizeT} {parts : ArrayView × ArrayView}
    (returned : view.split offset = some parts) :
    view.Contains parts.1 ∧ view.Contains parts.2 := by
  simp only [split, terminateIfOffsetOutOfRange] at returned
  split at returned
  · contradiction
  · rename_i within
    have within : offset.toNat ≤ view.size.toNat := Nat.le_of_not_lt within
    cases returned
    refine ⟨.inr ⟨0, rfl, ?_⟩, contains_rest within⟩
    rw [Nat.zero_add]
    exact within

/-- An offset within the size splits a view. -/
theorem split_eq {offset : SizeT} (within : offset.toNat ≤ view.size.toNat) :
    view.split offset =
      some (⟨view.data, offset⟩, ⟨view.data.add offset.toNat, view.size - offset⟩) := by
  have checked : ¬ offset > view.size := Nat.not_lt.mpr within
  rw [split, terminateIfOffsetOutOfRange, if_neg checked]
  rfl

/-- The elements of both parts are those of the whole. -/
theorem elements_split {T : Type*} (memory : Pointer → T) {offset : SizeT}
    (within : offset.toNat ≤ view.size.toNat) :
    elements ⟨view.data, offset⟩ memory ++
        elements ⟨view.data.add offset.toNat, view.size - offset⟩ memory =
      view.elements memory := by
  have rest : (view.size - offset).toNat = view.size.toNat - offset.toNat :=
    BitVec.toNat_sub_of_le (BitVec.le_def.mpr within)
  have sum : offset.toNat + (view.size.toNat - offset.toNat) = view.size.toNat :=
    Nat.add_sub_cancel' within
  simp only [elements, rest]
  rw [← sum, List.range_add, List.map_append, List.map_map, sum]
  simp only [Pointer.add, Nat.add_assoc, Function.comp_def]

/-- The wrapped sum is compared, not the sum. -/
theorem subview_eq (offset count : SizeT) :
    view.subview offset count =
      if (offset.toNat + count.toNat) % 2 ^ 64 ≤ view.size.toNat then
        some ⟨view.data.add offset.toNat, count⟩
      else none := by
  simp only [subview, terminateIfInvalidSubview, gt_iff_lt, BitVec.lt_def, BitVec.toNat_add]
  by_cases small : (offset.toNat + count.toNat) % 2 ^ 64 ≤ view.size.toNat
  · rw [if_neg (Nat.not_lt.mpr small), if_pos small]
    rfl
  · rw [if_pos (Nat.lt_of_not_le small), if_neg small]
    rfl

/-- A view begins with all smaller ones. -/
theorem subview_front {count : SizeT} (within : count.toNat ≤ view.size.toNat) :
    view.subview 0 count = some ⟨view.data, count⟩ := by
  have whole : (BitVec.toNat (0 : SizeT) + count.toNat) % 2 ^ 64 = count.toNat := by
    change (0 + count.toNat) % 2 ^ 64 = count.toNat
    rw [Nat.zero_add, Nat.mod_eq_of_lt count.isLt]
  rw [subview_eq, whole, if_pos within]
  rfl

/-- The check of a single offset adds up to the size again, so that it never fails. -/
theorem subviewFrom_eq (offset : SizeT) :
    view.subviewFrom offset = some ⟨view.data.add offset.toNat, view.size - offset⟩ := by
  have sum : offset + (view.size - offset) = view.size := by
    rw [BitVec.add_comm, BitVec.sub_add_cancel]
  simp [subviewFrom, terminateIfInvalidSubview, sum]

/-- `subview( offset, count )` answers exactly where the sum does not wrap around into the size. -/
theorem subview_answered_iff (offset count : SizeT) :
    (Call.subview offset count).Answered view ↔ (Call.subview offset count).Checked view := by
  have bounds : offset.toNat < 2 ^ 64 ∧ count.toNat < 2 ^ 64 ∧ view.size.toNat < 2 ^ 64 :=
    ⟨offset.isLt, count.isLt, view.size.isLt⟩
  simp only [Call.Answered, Call.Checked, subview_eq]
  by_cases fits : offset.toNat + count.toNat < 2 ^ 64
  · rw [Nat.mod_eq_of_lt fits]
    have same : offset.toNat + count.toNat ≤ view.size.toNat ↔
        offset.toNat ≤ view.size.toNat ∧ count.toNat ≤ view.size.toNat - offset.toNat := by
      omega
    exact iff_of_true (if_congr same rfl rfl) (.inl fits)
  · have wrapped : (offset.toNat + count.toNat) % 2 ^ 64 = offset.toNat + count.toNat - 2 ^ 64 := by
      omega
    have unfit : ¬ (offset.toNat ≤ view.size.toNat ∧
        count.toNat ≤ view.size.toNat - offset.toNat) := by
      omega
    rw [wrapped, if_neg unfit, ite_eq_right_iff]
    simp only [reduceCtorEq, imp_false]
    omega

/-- A `subview` that answers as asked is a part of its view. -/
theorem contains_subview {offset count : SizeT} {part : ArrayView}
    (answered : (Call.subview offset count).Answered view)
    (returned : view.subview offset count = some part) : view.Contains part := by
  simp only [Call.Answered, returned] at answered
  split at answered
  · rename_i fits
    cases answered
    apply contains_add
    omega
  · contradiction

/-- Each call stays in bounds exactly under its condition. -/
theorem inBounds_iff (view : ArrayView) (call : Call) : call.InBounds view ↔ call.Checked view := by
  cases call with
  | subview offset count =>
      rw [← subview_answered_iff]
      refine ⟨Call.InBounds.answered, fun answered => ⟨?_, answered⟩⟩
      intro parts returned part member
      obtain ⟨only, found, rfl⟩ := Option.map_eq_some_iff.mp returned
      rw [List.mem_singleton.mp member]
      exact contains_subview answered found
  | subviewFrom offset =>
      constructor
      · intro inBounds
        by_contra outside
        have stopped := inBounds.answered (Nat.lt_of_not_le outside)
        rw [subviewFrom_eq] at stopped
        contradiction
      · intro within
        refine ⟨?_, fun outside => absurd within (Nat.not_le.mpr outside)⟩
        intro parts returned part member
        rw [Call.run, subviewFrom_eq, Option.map_some, Option.some.injEq] at returned
        rw [← returned, List.mem_singleton] at member
        rw [member]
        exact contains_rest within
  | maxSubview offset count =>
      refine ⟨fun _ => trivial, fun _ => ⟨?_, trivial⟩⟩
      rintro parts returned part member
      cases returned
      rw [List.mem_singleton.mp member]
      exact contains_maxSubview offset count
  | maxSubviewFrom offset =>
      refine ⟨fun _ => trivial, fun _ => ⟨?_, trivial⟩⟩
      rintro parts returned part member
      cases returned
      rw [List.mem_singleton.mp member]
      exact contains_maxSubviewFrom offset
  | split offset =>
      refine ⟨fun _ => trivial, fun _ => ⟨?_, trivial⟩⟩
      intro parts returned part member
      obtain ⟨both, found, rfl⟩ := Option.map_eq_some_iff.mp returned
      obtain ⟨first, second⟩ := contains_split found
      rcases List.mem_cons.mp member with rfl | member
      · exact first
      · rw [List.mem_singleton.mp member]
        exact second

/-- A view of five elements gives away one that starts behind its end, and two elements that start
before the largest index. -/
theorem inBounds_wrapped :
    let view : ArrayView := ⟨⟨some 0, 0⟩, 5⟩
    ¬ (Call.subviewFrom 6).InBounds view ∧
      view.subviewFrom 6 = some ⟨⟨some 0, 6⟩, 0xFFFFFFFFFFFFFFFF⟩ ∧
      ¬ (Call.subview 0xFFFFFFFFFFFFFFFF 2).InBounds view ∧
      view.subview 0xFFFFFFFFFFFFFFFF 2 = some ⟨⟨some 0, 0xFFFFFFFFFFFFFFFF⟩, 2⟩ := by
  refine ⟨fun inBounds => ?_, by decide, fun inBounds => ?_, by decide⟩
  · exact absurd (inBounds.answered (by decide)) (by decide)
  · exact absurd inBounds.answered (by simp only [Call.Answered]; decide)

end ArrayView

end MartCommon.Common
