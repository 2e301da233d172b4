import MartCommon.Mba.CharBuffer
import MartCommon.Mba.ImStr

namespace MartCommon.Mba

open Library Library.BoundedWrites

section Definitions

variable {Resource : Type} (checked : Bool) (resource : Option Resource) (args : List Text)

/-- The first pass, a sum of type `std::size_t`. -/
def newSize : Nat := args.foldl (fun sum arg => sizeT (sum + arg.length)) 0

/-- `addTo`, with the block and the moving pointer as its state. -/
def addTo (state : List Byte × Nat) (str : Text) : Option (List Byte × Nat) := copyN str state

/-- The buffer that the four helpers obtain. -/
def concatBuffer : Option (CharBuffer Resource) :=
  allocateNullTerminatedCharBuffer checked (IntType.int.convert (newSize args)) resource

/-- The helpers differ in how they go through the arguments and in whether they hand a memory resource
on. -/
def concatHelper : Option (OwningStr Resource) :=
  (concatBuffer checked resource args).bind fun buffer =>
    (args.foldlM addTo (buffer.bytes, sizeofHeader)).map fun copied =>
      ⟨{ buffer with bytes := copied.1 }, newSize args⟩

def variadicHelper : Option (OwningStr Resource) := concatHelper checked none args

def rangeHelper : Option (OwningStr Resource) := concatHelper checked none args

def variadicHelperAlloc : Option (OwningStr Resource) := concatHelper checked resource args

def rangeHelperAlloc : Option (OwningStr Resource) := concatHelper checked resource args

/-- `_addTo`, which moves the pointer after the copy. -/
def addToStr (state : Text × Nat) (str : Text) : Option (Text × Nat) :=
  (storeAll str state).map fun copied => (copied.1, state.2 + str.length)

/-- `concat_cpp_str` writes into a `std::string` of spaces. -/
def concatCppStr : Option Text :=
  (args.foldlM addToStr (List.replicate (newSize args) 32, 0)).map Prod.fst

end Definitions

/-- The number of characters of all the arguments. -/
def totalLength : List Text → Nat
  | [] => 0
  | arg :: rest => arg.length + totalLength rest

section Passes

variable (args : List Text)

theorem totalLength_eq : totalLength args = args.flatten.length := by
  induction args with
  | nil => rfl
  | cons arg rest ih => rw [totalLength, ih, List.flatten_cons, List.length_append]

theorem newSize_eq : newSize args = totalLength args % 2 ^ 64 := by
  have added (sum : Nat) (small : sum < 2 ^ 64) :
      args.foldl (fun sum arg => sizeT (sum + arg.length)) sum =
        (sum + totalLength args) % 2 ^ 64 := by
    induction args generalizing sum with
    | nil => exact (Nat.mod_eq_of_lt small).symm
    | cons arg rest ih =>
        have wrapped : sizeT (sum + arg.length) < 2 ^ 64 := Nat.mod_lt _ (by decide)
        rw [List.foldl_cons, ih _ wrapped, totalLength, sizeT]
        omega
  rw [newSize, added 0 (by decide), Nat.zero_add]

/-- The conversion to `int` drops the high bits that the sum may lack already. -/
theorem convert_newSize :
    IntType.int.convert (newSize args) = IntType.int.convert (totalLength args) := by
  have same : (newSize args : Int) % (2 ^ 32 : Nat) = (totalLength args : Int) % (2 ^ 32 : Nat) := by
    rw [newSize_eq]
    omega
  simp only [IntType.convert, IntType.int, if_true, Int.bmod_def, same]

/-- The second pass writes the characters of all the arguments one after the other. -/
theorem foldlM_addTo (state : List Byte × Nat) :
    args.foldlM addTo state = copyN args.flatten state := by
  induction args generalizing state with
  | nil => rfl
  | cons arg rest ih =>
      rw [List.flatten_cons, copyN, List.map_append, storeAll_append, List.foldlM_cons]
      simp only [ih]
      rfl

theorem addToStr_eq (state : Text × Nat) (str : Text) : addToStr state str = storeAll str state := by
  rw [addToStr]
  cases copied : storeAll str state with
  | none => rfl
  | some final =>
      rw [Option.map_some, ← (storeAll_length copied).2]

theorem foldlM_addToStr (state : Text × Nat) :
    args.foldlM addToStr state = storeAll args.flatten state := by
  induction args generalizing state with
  | nil => rfl
  | cons arg rest ih =>
      rw [List.flatten_cons, storeAll_append, List.foldlM_cons, addToStr_eq]
      simp only [ih]
      rfl

end Passes

section Concatenated

variable {Resource : Type} {checked : Bool} {resource : Option Resource} {args : List Text}

theorem concatBuffer_eq (checked : Bool) (resource : Option Resource) (args : List Text) :
    concatBuffer checked resource args = copyFromBuffer checked resource args.flatten := by
  rw [concatBuffer, copyFromBuffer, convert_newSize, totalLength_eq]

/-- Each helper makes what the constructor makes of the joined characters. -/
theorem concatHelper_eq (checked : Bool) (resource : Option Resource) (args : List Text) :
    concatHelper checked resource args = copyFromBytes checked resource args.flatten := by
  rw [concatHelper, copyFromBytes, concatBuffer_eq]
  cases allocated : copyFromBuffer checked resource args.flatten with
  | none => rfl
  | some buffer =>
      rw [Option.bind_some, Option.bind_some, foldlM_addTo]
      by_cases small : args.flatten.length < 2 ^ 31
      · have size : newSize args = args.flatten.length := by
          rw [newSize_eq, totalLength_eq]
          exact Nat.mod_eq_of_lt (by omega)
        rw [size]
      · rw [copyN_large small allocated]
        rfl

/-- The one instruction of `concat` stands for what the helpers do byte by byte. -/
theorem concat_bytes (checked : Bool) (resource : Option Resource) (args : List Text) :
    concat args = (concatHelper checked resource args).elim .abort fun made =>
      .alloc made.buffer.text fun block =>
        pure { kind := .imZstr, view := ⟨.buffer block, 0, made.size⟩, handle := some block } := by
  rw [concatHelper_eq, concat, allocate_bytes]
  by_cases small : args.flatten.length < 2 ^ 31
  · rw [copyFromBytes_eq small]
    rfl
  · rw [copyFromBytes_large small]
    rfl

/-- What a concatenation is: the characters one after the other, a terminator, and a block without a
byte too many or without a value. -/
structure Concatenates (args : List Text) (str : OwningStr Resource) : Prop where
  size : str.size = totalLength args
  chars : ∀ index, index < str.size → str.buffer.charAt index = args.flatten[index]?
  terminated : str.buffer.charAt str.size = some 0
  exact : str.buffer.bytes.length = sizeofHeader + str.size + 1
  written : .blank ∉ str.buffer.bytes

theorem concatHelper_concatenates (checked : Bool) (resource : Option Resource)
    (fits : totalLength args < 2 ^ 31) :
    ∃ str, concatHelper checked resource args = some str ∧ Concatenates args str := by
  rw [totalLength_eq] at fits
  rw [concatHelper_eq, copyFromBytes_eq fits]
  refine ⟨_, rfl, (totalLength_eq args).symm, ?_, ?_, ?_, ?_⟩
  · intro index inside
    rw [CharBuffer.charAt_holding, List.getElem?_append_left inside]
  · rw [CharBuffer.charAt_holding]
    exact List.getElem?_concat_length
  · rw [CharBuffer.holding, List.length_append, List.length_replicate, List.length_map,
      List.length_append, List.length_singleton, Nat.add_assoc]
  · simp [CharBuffer.holding]

theorem concatCppStr_eq (fits : totalLength args < 2 ^ 64) :
    concatCppStr args = some args.flatten := by
  have size : newSize args = args.flatten.length := by
    rw [newSize_eq, Nat.mod_eq_of_lt fits, totalLength_eq]
  have copied := storeAll_fits args.flatten [] [] (List.replicate args.flatten.length 32) (by simp)
  rw [concatCppStr, foldlM_addToStr, size]
  simpa using congrArg (Option.map Prod.fst) copied

/-- All forms of `concat` agree, with assertions and without them, and so does `concat_cpp_str`. -/
theorem concat_forms_agree (checked : Bool) (resource : Option Resource) (args : List Text)
    (fits : totalLength args < 2 ^ 31) :
    (∃ str : OwningStr Resource, variadicHelper checked args = some str ∧
      rangeHelper checked args = some str ∧ Concatenates args str) ∧
    (∃ str, variadicHelperAlloc checked resource args = some str ∧
      rangeHelperAlloc checked resource args = some str ∧ Concatenates args str) ∧
    concatCppStr args = some args.flatten := by
  obtain ⟨plain, made, concatenates⟩ := concatHelper_concatenates checked (none : Option Resource) fits
  obtain ⟨other, madeOther, concatenatesOther⟩ := concatHelper_concatenates checked resource fits
  exact ⟨⟨plain, made, made, concatenates⟩, ⟨other, madeOther, madeOther, concatenatesOther⟩,
    concatCppStr_eq (by omega)⟩

theorem concat_forms_agree_hi :
    concatCppStr [[104], [], [105]] = some [104, 105] :=
  (concat_forms_agree true (none : Option Unit) [[104], [], [105]] (by decide)).2.2

/-- The buffers are large enough, with their terminator behind the characters, exactly where the
length is one of an `int`. -/
theorem charBuffer_room_iff (checked : Bool) (resource : Option Resource) :
    (∀ other : Text, (∃ buffer, copyFromBuffer checked resource other = some buffer ∧
      buffer.HasRoom other.length) ↔ other.length < 2 ^ 31) ∧
    ∀ args : List Text, (∃ buffer, concatBuffer checked resource args = some buffer ∧
      buffer.HasRoom (totalLength args)) ↔ totalLength args < 2 ^ 31 := by
  constructor
  · intro other
    exact allocate_room_iff
  · intro args
    rw [concatBuffer_eq, totalLength_eq]
    exact allocate_room_iff

/-- For `2 ^ 32` characters the block has 17 bytes, and the assertion holds. -/
theorem copyFromBuffer_wraps :
    ((copyFromBuffer true (none : Option Unit) (List.replicate (2 ^ 32) 65)).map fun buffer =>
      buffer.bytes.length) = some 17 ∧
    ¬ ∃ buffer, copyFromBuffer true (none : Option Unit) (List.replicate (2 ^ 32) 65) = some buffer ∧
      buffer.HasRoom (2 ^ 32) := by
  have zero : IntType.int.convert ((2 ^ 32 : Nat) : Int) = IntType.int.convert (0 : Nat) := by
    simp only [IntType.convert, IntType.int, if_true, Int.bmod_def]
    decide
  constructor
  · rw [copyFromBuffer, List.length_replicate, zero, allocate_eq (by decide)]
    rfl
  · rw [copyFromBuffer, List.length_replicate, allocate_room_iff]
    decide

end Concatenated

end MartCommon.Mba
