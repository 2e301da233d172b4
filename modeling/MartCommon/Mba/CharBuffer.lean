import MartCommon.Library.BoundedWrites
import MartCommon.Library.IntType
import MartCommon.Mba.View

namespace MartCommon.Mba

open Library Library.BoundedWrites

/-- What is known of a byte of an allocated block. -/
inductive Byte where
  | blank
  | header
  | char (char : UInt8)
  deriving DecidableEq

/-- The fields in front of the characters. -/
structure Header (Resource : Type) where
  refCnt : Int
  size : Int
  alloc : Option Resource

/-- A block with a header at its start. -/
structure CharBuffer (Resource : Type) where
  header : Header Resource
  bytes : List Byte

/-- `sizeof( Header )`, two integers of four bytes and a pointer. -/
def sizeofHeader : Nat := 16

variable {Resource : Type}

/-- `data[index]`, for an index in the block. -/
def CharBuffer.charAt (buffer : CharBuffer Resource) (index : Nat) : Option UInt8 :=
  match buffer.bytes[sizeofHeader + index]? with
  | some (.char char) => some char
  | _ => none

/-- The text that a block holds behind its header. -/
def CharBuffer.text (buffer : CharBuffer Resource) : Text :=
  (buffer.bytes.drop sizeofHeader).filterMap fun byte =>
    match byte with
    | .char char => some char
    | _ => none

/-- `sizeof( Header ) + size + 1`, where the `int` is converted to `std::size_t`. -/
def totalSize (size : Int) : Nat := ((sizeofHeader + size + 1) % 2 ^ 64).toNat

/-- `allocate_null_terminated_char_buffer`. The memory resource, or `malloc` without one, returns a
block of the size that is asked for. The assertion is there in a checked build only. There is no result
where it fails or where a write leaves the block. -/
def allocateNullTerminatedCharBuffer (checked : Bool) (size : Int) (resource : Option Resource) :
    Option (CharBuffer Resource) :=
  if checked ∧ size < 0 then none
  else
    (storeAll (List.replicate sizeofHeader .header)
      (List.replicate (totalSize size) .blank, 0)).bind fun placed =>
        (store placed.1 (placed.2 + size) (.char 0)).map fun bytes => ⟨⟨1, size, resource⟩, bytes⟩

/-- The `std::copy_n` of characters. It ends with the pointer behind them. -/
def copyN (str : Text) (state : List Byte × Nat) : Option (List Byte × Nat) :=
  storeAll (str.map .char) state

/-- A string with its only handle on a buffer, whose view starts with the first character. -/
structure OwningStr (Resource : Type) where
  buffer : CharBuffer Resource
  size : Nat

/-- The buffer that `_copy_from` obtains for a view that is not null. -/
def copyFromBuffer (checked : Bool) (resource : Option Resource) (other : Text) :
    Option (CharBuffer Resource) :=
  allocateNullTerminatedCharBuffer checked (IntType.int.convert other.length) resource

/-- `_copy_from` byte by byte, for a view that is not null. -/
def copyFromBytes (checked : Bool) (resource : Option Resource) (other : Text) :
    Option (OwningStr Resource) :=
  (copyFromBuffer checked resource other).bind fun buffer =>
    (copyN other (buffer.bytes, sizeofHeader)).map fun copied =>
      ⟨{ buffer with bytes := copied.1 }, other.length⟩

/-- Room for the header, the characters and the terminator, which stands behind the characters. -/
structure CharBuffer.HasRoom (buffer : CharBuffer Resource) (size : Nat) : Prop where
  fits : sizeofHeader + (size + 1) ≤ buffer.bytes.length
  terminated : buffer.charAt size = some 0

/-- A block that is written as a whole. -/
def CharBuffer.holding (header : Header Resource) (text : Text) : CharBuffer Resource :=
  ⟨header, List.replicate sizeofHeader .header ++ text.map .char⟩

section Holding

variable (header : Header Resource) (text : Text)

theorem CharBuffer.text_holding : (holding header text).text = text := by
  simp [CharBuffer.text, holding, List.filterMap_map]

theorem CharBuffer.charAt_holding (index : Nat) :
    (holding header text).charAt index = text[index]? := by
  rw [charAt, holding, List.getElem?_append_right (by simp)]
  cases found : text[index]? <;> simp [found]

end Holding

section Allocation

variable {checked : Bool} {resource : Option Resource}

/-- A block for a size that an `int` holds has a header, blank characters and a terminator. -/
theorem allocate_eq {size : Nat} (small : size < 2 ^ 31) :
    allocateNullTerminatedCharBuffer checked (IntType.int.convert size) resource =
      some ⟨⟨1, size, resource⟩, List.replicate sizeofHeader .header ++
        List.replicate size .blank ++ [.char 0]⟩ := by
  have converted : IntType.int.convert size = size := by
    apply IntType.convert_of_inRange (by decide)
    rw [IntType.inRange_int]
    omega
  have total : totalSize size = sizeofHeader + (size + 1) := by
    unfold totalSize sizeofHeader
    omega
  have placed : storeAll (List.replicate sizeofHeader Byte.header)
      (List.replicate sizeofHeader .blank ++ List.replicate (size + 1) .blank, 0) =
        some (List.replicate sizeofHeader .header ++ List.replicate (size + 1) .blank,
          sizeofHeader) := by
    simpa using storeAll_fits (List.replicate sizeofHeader Byte.header) []
      (List.replicate (size + 1) .blank) (List.replicate sizeofHeader .blank) (by simp)
  have terminated : store (List.replicate sizeofHeader Byte.header ++
      List.replicate (size + 1) .blank) (sizeofHeader + size) (.char 0) =
        some (List.replicate sizeofHeader .header ++ List.replicate size .blank ++ [.char 0]) := by
    have stored := store_fits (List.replicate sizeofHeader Byte.header ++
      List.replicate size .blank) [] .blank (.char 0)
    rw [List.length_append, List.length_replicate, List.length_replicate, Int.natCast_add] at stored
    rwa [List.replicate_succ', ← List.append_assoc]
  rw [converted, allocateNullTerminatedCharBuffer, if_neg (by omega), total, List.replicate_add,
    placed, Option.bind_some, terminated, Option.map_some]

/-- The block that is allocated has the size that is asked for. -/
theorem allocate_length {size : Int} {buffer : CharBuffer Resource}
    (allocated : allocateNullTerminatedCharBuffer checked size resource = some buffer) :
    buffer.bytes.length = totalSize size ∧ 0 ≤ sizeofHeader + size := by
  rw [allocateNullTerminatedCharBuffer, Option.ite_none_left_eq_some] at allocated
  obtain ⟨placed, headed, ended⟩ := Option.bind_eq_some_iff.mp allocated.2
  obtain ⟨bytes, terminated, rfl⟩ := Option.map_eq_some_iff.mp ended
  obtain ⟨same, moved⟩ := storeAll_length headed
  have inside := store_inside terminated
  rw [moved, List.length_replicate] at inside
  rw [store_length terminated, same, List.length_replicate]
  exact ⟨rfl, by omega⟩

/-- Beyond the largest `int` the size turns negative or loses its high bits. -/
theorem allocate_short {size : Nat} {buffer : CharBuffer Resource} (large : ¬ size < 2 ^ 31)
    (allocated : allocateNullTerminatedCharBuffer checked (IntType.int.convert size) resource =
      some buffer) : buffer.bytes.length < sizeofHeader + size := by
  obtain ⟨length, inside⟩ := allocate_length allocated
  have residue : IntType.int.convert size = if (size : Int) % 2 ^ 32 < 2 ^ 31
      then (size : Int) % 2 ^ 32 else (size : Int) % 2 ^ 32 - 2 ^ 32 := by
    simp only [IntType.convert, IntType.int, if_true, Int.bmod_def]
    rfl
  rw [length]
  unfold totalSize sizeofHeader
  unfold sizeofHeader at inside
  rw [residue] at inside ⊢
  split at inside <;> split <;> omega

/-- The block fits the characters exactly up to the largest `int`. -/
theorem allocate_room_iff {size : Nat} :
    (∃ buffer, allocateNullTerminatedCharBuffer checked (IntType.int.convert size) resource =
      some buffer ∧ buffer.HasRoom size) ↔ size < 2 ^ 31 := by
  constructor
  · rintro ⟨buffer, allocated, room⟩
    by_contra large
    have short := allocate_short large allocated
    have fits := room.fits
    omega
  · intro small
    refine ⟨_, allocate_eq small, by simp, ?_⟩
    simp [CharBuffer.charAt]

/-- What follows the allocation decides as the allocation does. -/
theorem copyFromBytes_eq {other : Text} (small : other.length < 2 ^ 31) :
    copyFromBytes checked resource other =
      some ⟨.holding ⟨1, other.length, resource⟩ (other ++ [0]), other.length⟩ := by
  have copied := storeAll_fits (other.map Byte.char) (List.replicate sizeofHeader .header)
    [.char 0] (List.replicate other.length .blank) (by simp)
  rw [List.length_replicate] at copied
  rw [copyFromBytes, copyFromBuffer, allocate_eq small, Option.bind_some, copyN, copied]
  simp [CharBuffer.holding]

/-- Where the size does not fit, the copy leaves the block. -/
theorem copyN_large {other : Text} {buffer : CharBuffer Resource} (large : ¬ other.length < 2 ^ 31)
    (allocated : copyFromBuffer checked resource other = some buffer) :
    copyN other (buffer.bytes, sizeofHeader) = none := by
  have short := allocate_short large allocated
  rw [Option.eq_none_iff_forall_ne_some]
  intro final written
  have any : other.map Byte.char ≠ [] := by
    intro none
    rw [List.map_eq_nil_iff] at none
    rw [none] at large
    exact large (by decide)
  have inside : sizeofHeader + (other.map Byte.char).length ≤ buffer.bytes.length :=
    storeAll_inside written any
  rw [List.length_map] at inside
  omega

theorem copyFromBytes_large {other : Text} (large : ¬ other.length < 2 ^ 31) :
    copyFromBytes checked resource other = none := by
  rw [copyFromBytes]
  cases allocated : copyFromBuffer checked resource other with
  | none => rfl
  | some buffer => rw [Option.bind_some, copyN_large large allocated, Option.map_none]

/-- `allocate` puts the allocation and the copy together into one instruction. -/
theorem allocate_bytes (other : Text) :
    AtomicRefCntBuffer.allocate other = (copyFromBytes checked resource other).elim .abort fun made =>
      .alloc made.buffer.text .done := by
  by_cases small : other.length < 2 ^ 31
  · rw [AtomicRefCntBuffer.allocate, if_pos small, copyFromBytes_eq small, Option.elim_some,
      CharBuffer.text_holding]
  · rw [AtomicRefCntBuffer.allocate, if_neg small, copyFromBytes_large small, Option.elim_none]

end Allocation

end MartCommon.Mba
