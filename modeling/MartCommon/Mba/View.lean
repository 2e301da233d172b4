import MartCommon.Mba.RefCntBuf

namespace MartCommon.Mba

open Library Library.RefCount

/-- What `data()` points into: nothing, an object with static storage duration, or a counted buffer. -/
inductive Storage where
  | null
  | literal (bytes : Text)
  | buffer (block : Block)
  deriving DecidableEq

/-- A `std::string_view`. The default one is null. -/
structure View where
  storage : Storage := .null
  offset : Nat := 0
  size : Nat := 0
  deriving DecidableEq

/-- `std::string_view::npos`, the largest `std::size_t`. -/
def npos : Nat := 2 ^ 64 - 1

/-- Arithmetic on `std::size_t` wraps around. -/
def sizeT (value : Nat) : Nat := value % 2 ^ 64

/-- `getEmptyZeroTerminatedStringView`. -/
def getEmptyZeroTerminatedStringView : View := ⟨.literal [0], 0, 0⟩

/-- `std::string_view( const char* )` ends before the first zero. An array without one is read beyond
its end. -/
def View.ofArray (array : Text) : Prog View :=
  match array.findIdx? (· == 0) with
  | none => .abort
  | some size => pure ⟨.literal array, 0, size⟩

/-- `std::string_view::substr` throws beyond the end and takes at most what is there. -/
def View.substr (view : View) (pos count : Nat) : Option View :=
  if pos ≤ view.size then
    some { view with offset := view.offset + pos, size := min count (view.size - pos) }
  else none

/-- All bytes of the object that the view points into. -/
def View.bytes (view : View) : Prog Text :=
  match view.storage with
  | .null => pure []
  | .literal bytes => pure bytes
  | .buffer block => .read block .done

/-- The characters of the view. -/
def View.chars (view : View) : Prog Text := do
  let bytes ← view.bytes
  pure ((bytes.drop view.offset).take view.size)

/-- `data()[index]`. Outside the object it reads what is not there. -/
def View.charAt (view : View) (index : Nat) : Prog UInt8 := do
  let bytes ← view.bytes
  match bytes[view.offset + index]? with
  | none => .abort
  | some char => pure char

/-- `std::string_view::find( char, pos )`. -/
def find (chars : Text) (char : UInt8) (pos : Nat) : Nat :=
  match (chars.drop pos).findIdx? (· == char) with
  | none => npos
  | some index => pos + index

/-- `std::string_view::rfind( char )`. -/
def rfind (chars : Text) (char : UInt8) : Nat :=
  match chars.reverse.findIdx? (· == char) with
  | none => npos
  | some index => chars.length - 1 - index

/-- The byte that `data()[index]` stands for, where there is one. -/
def View.byteAt (contents : Block → Option Text) (view : View) (index : Nat) : Option UInt8 :=
  match view.storage with
  | .null => none
  | .literal bytes => bytes[view.offset + index]?
  | .buffer block => (contents block).bind fun bytes => bytes[view.offset + index]?

/-- A byte that is stored stays what it is. -/
theorem View.byteAt_mono {earlier later : Block → Option Text}
    (kept : Extends earlier later) {view : View} {index : Nat} {byte : UInt8}
    (found : view.byteAt earlier index = some byte) :
    view.byteAt later index = some byte := by
  unfold View.byteAt at found ⊢
  cases storage : view.storage with
  | null => simp [storage] at found
  | literal bytes => simpa [storage] using found
  | buffer block =>
      simp only [storage, Option.bind_eq_some_iff] at found ⊢
      obtain ⟨bytes, stored, here⟩ := found
      exact ⟨bytes, kept block bytes stored, here⟩

/-- A part of a view points into the same object. -/
theorem View.substr_storage {view part : View} {pos count : Nat}
    (taken : view.substr pos count = some part) :
    part.storage = view.storage ∧ part.size ≤ view.size ∧
      part.offset + part.size ≤ view.offset + view.size := by
  simp only [View.substr, Option.ite_none_right_eq_some, Option.some.injEq] at taken
  obtain ⟨within, rfl⟩ := taken
  exact ⟨rfl, by simp only; omega, by simp only; omega⟩

section Sound

variable {contents : Block → Option Text} {held : Multiset Block} {view : View}

/-- The bytes that are read are those that the contents name. -/
theorem View.sound_bytes {post : Text → Multiset Block → Prop}
    (ends : ∀ bytes, (∀ index, view.byteAt contents index = bytes[view.offset + index]?) →
      post bytes held) :
    view.bytes.Sound contents post none held := by
  unfold View.bytes
  cases storage : view.storage with
  | null => exact Program.sound_pure.mpr (ends [] fun index => by simp [View.byteAt, storage])
  | literal bytes =>
      exact Program.sound_pure.mpr (ends bytes fun index => by simp [View.byteAt, storage])
  | buffer block =>
      refine ⟨rfl, fun bytes stored => Program.sound_done.mpr (ends bytes fun index => ?_)⟩
      simp [View.byteAt, storage, stored]

/-- Reading the characters touches no handle. -/
theorem View.sound_chars {post : Text → Multiset Block → Prop}
    (ends : ∀ chars, post chars held) : view.chars.Sound contents post none held :=
  .bind (View.sound_bytes fun _ _ => Program.sound_pure.mpr (ends _))

/-- A character that is read is one that the contents name. -/
theorem View.sound_charAt {index : Nat} {post : UInt8 → Multiset Block → Prop}
    (ends : ∀ char, view.byteAt contents index = some char → post char held) :
    (view.charAt index).Sound contents post none held := by
  refine .bind (View.sound_bytes fun bytes named => ?_)
  cases found : bytes[view.offset + index]? with
  | none => exact Program.sound_abort
  | some char => exact Program.sound_pure.mpr (ends char (by rw [named, found]))

end Sound

end MartCommon.Mba
