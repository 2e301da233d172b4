import MartCommon.Library.RefCountReturns
import MartCommon.Mba.ImStr

namespace MartCommon.Mba

open Library Library.RefCount

variable {contents : Block → Option Text}

/-- All bytes of the object that the view points into, where the buffer is stored. -/
def View.stored (contents : Block → Option Text) (view : View) : Option Text :=
  match view.storage with
  | .null => some []
  | .literal bytes => some bytes
  | .buffer block => contents block

/-- A view shows a text that lies in its object. Its size is a `std::size_t`. -/
structure View.Shows (contents : Block → Option Text) (view : View) (text : Text) : Prop where
  taken : ∃ bytes, view.stored contents = some bytes ∧
    (bytes.drop view.offset).take view.size = text
  length : text.length = view.size
  bounded : view.size < 2 ^ 64

/-- A view shows one text only. -/
theorem View.Shows.unique {view : View} {text other : Text} (shown : view.Shows contents text)
    (also : view.Shows contents other) : text = other := by
  obtain ⟨bytes, stored, rfl⟩ := shown.taken
  obtain ⟨same, again, rfl⟩ := also.taken
  rw [Option.some.inj (stored.symm.trans again)]

/-- The characters that are read are those of the text. -/
theorem View.Shows.returns_chars {view : View} {text : Text} {post : Text → Prop}
    (shown : view.Shows contents text) : view.chars.Returns contents post ↔ post text := by
  obtain ⟨bytes, stored, taken⟩ := shown.taken
  rw [View.chars, Program.returns_bind]
  unfold View.bytes
  unfold View.stored at stored
  cases storage : view.storage with
  | null | literal own =>
      rw [storage] at stored
      cases stored
      rw [Program.returns_pure, Program.returns_pure, taken]
  | buffer block =>
      rw [storage] at stored
      rw [Program.returns_read stored, ← taken]
      exact .rfl

/-- A part of a view shows a part of the text. -/
theorem View.Shows.substr {view : View} {text : Text} (pos count : Nat)
    (shown : view.Shows contents text) (within : pos ≤ text.length) :
    ∃ part, view.substr pos count = some part ∧ part.Shows contents ((text.drop pos).take count) := by
  obtain ⟨bytes, stored, rfl⟩ := shown.taken
  have length := shown.length
  rw [View.substr, if_pos (length ▸ within)]
  refine ⟨_, rfl, ⟨bytes, stored, ?_⟩, ?_, ?_⟩
  · rw [List.drop_take, List.take_take, List.drop_drop]
  · rw [List.length_take, List.length_drop, length]
  · exact (min_le_right _ _).trans_lt ((Nat.sub_le _ _).trans_lt shown.bounded)

/-- The new count is not read. -/
theorem returns_addRefCnt {handle : Handle} {cnt : Nat} {post : Unit → Prop} :
    (addRefCnt handle cnt).Returns contents post ↔ post () := by
  cases handle <;> exact .rfl

end MartCommon.Mba
