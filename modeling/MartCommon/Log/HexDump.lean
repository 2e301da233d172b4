import MartCommon.Common.ArrayView
import MartCommon.Library.IteratorLoop
import MartCommon.Library.OutputStream

namespace MartCommon.Log

open Library Library.OutputStream Common

/-- The constant `space` of `printOneLine`. -/
def space : Text := List.replicate 149 32

/-- The bytes of a line, where `b` is an `int`. -/
def printByte (b : UInt8) : Inserter :=
  insertAll [insertText (ascii " "), setw 2, insertInteger b.toNat]

/-- `printOneLine( out, mem, fillto )` -/
def printOneLine (memory : Pointer → UInt8) (mem : ArrayView) (fillto : SizeT) : Inserter :=
  insertAll
    [insertText (ascii "["), insertAll ((mem.elements memory).map printByte),
      insertAll (if fillto > mem.size then
        [insertText (space.take ((fillto - mem.size) * 3).toNat)] else []),
      insertText (ascii " ]")]

def elementsPerLine : SizeT := 20

/-- `std::min( ElementsPerLine, mem.size() )` -/
def lineSize (mem : ArrayView) : SizeT := if mem.size < elementsPerLine then mem.size else elementsPerLine

/-- The `while` loop, which passes the first part of each split to `printOneLine`. -/
def splitting : IteratorLoop ArrayView ArrayView where
  last mem := mem.empty
  value mem := (mem.split (lineSize mem)).map Prod.fst
  next mem := (mem.split (lineSize mem)).map Prod.snd

/-- `defaultFormatForLog( out, mart::ConstMemoryView mem )` with the parts that it passes to
`printOneLine`. It has no result where a split terminates the program. -/
def defaultFormatForLog (memory : Pointer → UInt8) (mem : ArrayView) :
    Option (List ArrayView × Inserter) :=
  let printed (body : List Inserter) := savingFlags (insertAll ([right, hex, setfill 48] ++ body))
  if mem.size ≤ elementsPerLine then
    some ([mem], printed [printOneLine memory mem 0])
  else
    (splitting.traverse mem.size.toNat mem).map fun parts =>
      (parts, printed
        [insertAll (parts.map fun part =>
            (insertText (ascii "\n\t")).andThen (printOneLine memory part elementsPerLine)),
          insertText (ascii "\n")])

section Specification

/-- The value of a hexadecimal digit in either case. -/
def hexValue (char : UInt8) : Option Nat :=
  if 48 ≤ char ∧ char ≤ 57 then some (char.toNat - 48)
  else if 97 ≤ char ∧ char ≤ 102 then some (char.toNat - 87)
  else if 65 ≤ char ∧ char ≤ 70 then some (char.toNat - 55)
  else none

def IsTwoDigits (b : UInt8) (digits : Text) : Prop :=
  digits.map hexValue = [some (b.toNat / 16), some (b.toNat % 16)]

/-- A line has each byte as two digits behind a space, and nothing else than blanks up to its end. -/
def IsLine (bytes : List UInt8) (line : Text) : Prop :=
  ∃ (digits : List Text) (blanks : Nat), List.Forall₂ IsTwoDigits bytes digits ∧
    line = ascii "[" ++ digits.flatMap (ascii " " ++ ·) ++ List.replicate blanks 32 ++ ascii " ]"

/-- A line stands alone, or each line begins below and is indented. A width that the stream had before
pads the text in front. -/
def Arranged (lines : List Text) (text : Text) : Prop :=
  ∃ padding, lines.length = 1 ∧ text = List.replicate padding 48 ++ lines.flatten ∨
    text = List.replicate padding 48 ++ lines.flatMap (ascii "\n\t" ++ ·) ++ ascii "\n"

/-- The parts that are printed make up the memory, and all of them but the last are full when it does
not fit on one line. -/
structure Divided (memory : Pointer → UInt8) (mem : ArrayView) (parts : List ArrayView) : Prop where
  whole : parts.flatMap (·.elements memory) = mem.elements memory
  full : elementsPerLine.toNat < mem.size.toNat →
    ∀ part ∈ parts.dropLast, part.size.toNat = elementsPerLine.toNat

/-- The function returns, and the text has one line for each part, all of the same width. -/
def Dumps (memory : Pointer → UInt8) (mem : ArrayView) (format : Format) : Prop :=
  ∃ parts inserter, defaultFormatForLog memory mem = some (parts, inserter) ∧
    Divided memory mem parts ∧ (inserter format).throws = false ∧
      ∃ lines, Arranged lines (inserter format).text ∧
        List.Forall₂ (fun part line => IsLine (part.elements memory) line) parts lines ∧
          ∀ first ∈ lines, ∀ second ∈ lines, first.length = second.length

end Specification

section Division

theorem lineSize_toNat (mem : ArrayView) : (lineSize mem).toNat = min mem.size.toNat 20 := by
  have twenty : elementsPerLine.toNat = 20 := rfl
  unfold lineSize
  split <;> rename_i short <;> rw [BitVec.lt_def, twenty] at short <;> omega

/-- A split never terminates the program. -/
theorem split_lineSize (mem : ArrayView) : mem.split (lineSize mem) =
    some (⟨mem.data, lineSize mem⟩,
      ⟨mem.data.add (lineSize mem).toNat, mem.size - lineSize mem⟩) :=
  ArrayView.split_eq (by rw [lineSize_toNat]; omega)

theorem empty_iff {mem : ArrayView} : mem.empty = true ↔ mem.size.toNat = 0 := by
  rw [ArrayView.empty, beq_iff_eq, BitVec.toNat_eq]
  rfl

/-- What the loop makes of a view: all its bytes, on lines that are full unless they are the last. -/
structure Lines (memory : Pointer → UInt8) (mem : ArrayView) (parts : List ArrayView) : Prop where
  whole : parts.flatMap (·.elements memory) = mem.elements memory
  full : ∀ part ∈ parts.dropLast, part.size.toNat = 20
  within : ∀ part ∈ parts, part.size.toNat ≤ 20
  nothing : mem.size.toNat = 0 → parts = []

variable {memory : Pointer → UInt8} {mem : ArrayView}

theorem lines_empty (last : mem.empty = true) : Lines memory mem [] where
  whole := by
    rw [ArrayView.elements, empty_iff.mp last]
    rfl
  full := by simp
  within := by simp
  nothing _ := rfl

/-- The first part comes before what the loop makes of the second one. -/
theorem lines_next (more : mem.empty = false) {parts : List ArrayView}
    (rest : Lines memory ⟨mem.data.add (lineSize mem).toNat, mem.size - lineSize mem⟩ parts) :
    Lines memory mem (⟨mem.data, lineSize mem⟩ :: parts) := by
  have inside : (lineSize mem).toNat ≤ mem.size.toNat := by
    rw [lineSize_toNat]
    omega
  have left : (mem.size - lineSize mem).toNat = mem.size.toNat - (lineSize mem).toNat :=
    BitVec.toNat_sub_of_le (BitVec.le_def.mpr inside)
  have nonempty : mem.size.toNat ≠ 0 := fun zero => by
    rw [empty_iff.mpr zero] at more
    contradiction
  constructor
  · rw [List.flatMap_cons, rest.whole, ArrayView.elements_split memory inside]
  · intro part member
    by_cases last : parts = []
    · rw [last] at member
      contradiction
    · rw [List.dropLast_cons_of_ne_nil last] at member
      rcases List.mem_cons.mp member with rfl | member
      · -- Something is left, so that the first line is full.
        have some_left := mt rest.nothing last
        rw [left, lineSize_toNat] at some_left
        rw [lineSize_toNat]
        omega
      · exact rest.full part member
  · rw [List.forall_mem_cons, lineSize_toNat]
    exact ⟨Nat.min_le_right _ _, rest.within⟩
  · exact fun zero => absurd zero nonempty

/-- The loop ends before its increments are used up. -/
theorem traverse_lines (memory : Pointer → UInt8) (mem : ArrayView) :
    ∃ parts, splitting.traverse mem.size.toNat mem = some parts ∧ Lines memory mem parts := by
  apply splitting.traverse_total (fun mem => mem.size.toNat) (Lines memory)
  · exact fun mem last => lines_empty last
  · intro mem more
    refine ⟨_, _, congrArg (Option.map Prod.fst) (split_lineSize mem),
      congrArg (Option.map Prod.snd) (split_lineSize mem), ?_, fun rest => lines_next more⟩
    have nonempty := mt empty_iff.mpr (Bool.eq_false_iff.mp more)
    have inside : (lineSize mem).toNat ≤ mem.size.toNat := by
      rw [lineSize_toNat]
      omega
    rw [BitVec.toNat_sub_of_le (BitVec.le_def.mpr inside), lineSize_toNat]
    omega
  · exact le_rfl

end Division

section Printing

/-- How a byte is shown on the stream of a dump. -/
def byteText (settings : Settings) (b : UInt8) : Text :=
  let parts := settings.integer b.toNat
  Format.pad ⟨settings, .right, 2, false⟩ parts.1 parts.2

/-- The blanks that fill a line up. -/
def blanks (mem : ArrayView) (fillto : SizeT) : Nat :=
  if fillto > mem.size then min ((fillto - mem.size) * 3).toNat 149 else 0

def lineText (memory : Pointer → UInt8) (settings : Settings) (mem : ArrayView) (fillto : SizeT) :
    Text :=
  ascii "[" ++ (mem.elements memory).flatMap (fun b => ascii " " ++ byteText settings b) ++
    List.replicate (blanks mem fillto) 32 ++ ascii " ]"

variable {memory : Pointer → UInt8} {settings : Settings} {mem : ArrayView} {fillto : SizeT}

theorem printByte_eq (b : UInt8) : printByte b ⟨settings, .right, 0, false⟩ =
    { text := ascii " " ++ byteText settings b, format := ⟨settings, .right, 0, false⟩ } := by
  have width : setw 2 ⟨settings, .right, 0, false⟩ = { format := ⟨settings, .right, 2, false⟩ } := rfl
  have number : insertInteger b.toNat ⟨settings, .right, 2, false⟩ =
      { text := byteText settings b, format := ⟨settings, .right, 0, false⟩ } := formatted_good rfl
  rw [printByte, insertAll, andThen_eq (insertText_plain rfl rfl (ascii " ")), insertAll, andThen_eq width,
    insertAll, andThen_eq number, insertAll, List.nil_append, List.append_nil]

/-- The blanks that are taken from the constant. -/
theorem fill_eq : insertAll
      (if fillto > mem.size then [insertText (space.take ((fillto - mem.size) * 3).toNat)] else [])
      ⟨settings, .right, 0, false⟩ =
    { text := List.replicate (blanks mem fillto) 32, format := ⟨settings, .right, 0, false⟩ } := by
  unfold blanks
  split
  · rw [insertAll, andThen_eq (insertText_plain rfl rfl _), insertAll, List.append_nil, space,
      List.take_replicate]
  · rfl

/-- A width that the stream had before pads the bracket. -/
theorem printOneLine_eq (width : Nat) :
    printOneLine memory mem fillto ⟨settings, .right, width, false⟩ =
      { text := List.replicate (width - 1) settings.fill ++ lineText memory settings mem fillto
        format := ⟨settings, .right, 0, false⟩ } := by
  have bytes : insertAll ((mem.elements memory).map printByte) ⟨settings, .right, 0, false⟩ = _ :=
    insertAll_fixed fun b _ => printByte_eq b
  rw [printOneLine, insertAll, andThen_eq (insertText_right settings width _), insertAll,
    andThen_eq bytes, insertAll, andThen_eq fill_eq, insertAll,
    andThen_eq (insertText_plain rfl rfl _), insertAll]
  simp [lineText, ascii]

end Printing

section Digits

/-- The settings of the stream while it dumps. -/
def dumping (settings : Settings) : Settings := { settings with base := .hex, fill := 48 }

/-- Digits that are padded with zeros to two places. -/
theorem padded_digits (uppercase : Bool) (n : Fin 256) :
    (List.replicate (2 - (digits uppercase 16 n).length) 48 ++ digits uppercase 16 n).map hexValue =
      [some (n.val / 16), some (n.val % 16)] := by
  revert uppercase n
  decide +kernel

variable {settings : Settings} {b : UInt8}

/-- The base in front of a byte and its digits. -/
theorem integer_byte (settings : Settings) (b : UInt8) : (dumping settings).integer b.toNat =
    (if settings.showbase && b.toNat ≠ 0 then ascii (if settings.uppercase then "0X" else "0x") else [],
      digits settings.uppercase 16 b.toNat) := by
  have small := b.toNat_lt
  have unsigned : (BitVec.ofInt 64 b.toNat).toNat = b.toNat := by
    rw [BitVec.ofInt_natCast, BitVec.toNat_ofNat]
    omega
  rw [Settings.integer, unsigned]
  rfl

/-- Without a base in front, a byte has two digits. Zero never has one. -/
theorem byteText_twoDigits (plain : settings.showbase = false ∨ b = 0) :
    IsTwoDigits b (byteText (dumping settings) b) := by
  have front : (settings.showbase && b.toNat ≠ 0) = false := by
    rcases plain with plain | rfl
    · rw [plain, Bool.false_and]
    · exact Bool.and_false _
  have digits := padded_digits settings.uppercase ⟨b.toNat, b.toNat_lt⟩
  rw [IsTwoDigits, ← digits, byteText, integer_byte, front]
  simp [Format.pad, dumping]

/-- The characters of a dump besides the digits. -/
def frame : Text := ascii "[] \n\t0"

/-- A base in front of a byte is marked with a letter that is no digit. -/
theorem byteText_marked (base : settings.showbase = true) (nonzero : b ≠ 0) :
    ∃ mark ∈ byteText (dumping settings) b, hexValue mark = none ∧ mark ∉ frame := by
  have front : (settings.showbase && b.toNat ≠ 0) = true := by
    rw [base, Bool.true_and, decide_eq_true_iff]
    exact fun zero => nonzero (UInt8.toNat_inj.mp zero)
  rw [byteText, integer_byte, front]
  cases settings.uppercase
  · exact ⟨120, by simp [Format.pad, ascii], by decide⟩
  · exact ⟨88, by simp [Format.pad, ascii], by decide⟩

end Digits

section Dumping

/-- The manipulators come before everything else. -/
theorem manipulators_eq {format : Format} (good : format.failed = false) (body : List Inserter) :
    (savingFlags (insertAll ([right, hex, setfill 48] ++ body)) format).text =
        (insertAll body ⟨dumping format.settings, .right, format.width, false⟩).text ∧
      (savingFlags (insertAll ([right, hex, setfill 48] ++ body)) format).throws =
        (insertAll body ⟨dumping format.settings, .right, format.width, false⟩).throws := by
  rw [← good]
  exact ⟨rfl, rfl⟩

variable {memory : Pointer → UInt8} {mem : ArrayView} {settings : Settings}

theorem indented_eq (part : ArrayView) (width : Nat) :
    (insertText (ascii "\n\t")).andThen (printOneLine memory part elementsPerLine)
        ⟨dumping settings, .right, width, false⟩ =
      { text := List.replicate (width - 2) 48 ++
          (ascii "\n\t" ++ lineText memory (dumping settings) part elementsPerLine)
        format := ⟨dumping settings, .right, 0, false⟩ } := by
  rw [andThen_eq (insertText_right _ width _), printOneLine_eq]
  simp [dumping, ascii]

/-- Only the first line can be behind the padding of an earlier width. -/
theorem insertAll_indented {parts : List ArrayView} (nonempty : parts ≠ []) (width : Nat) :
    insertAll
        [insertAll (parts.map fun part =>
            (insertText (ascii "\n\t")).andThen (printOneLine memory part elementsPerLine)),
          insertText (ascii "\n")] ⟨dumping settings, .right, width, false⟩ =
      { text := List.replicate (width - 2) 48 ++
          (parts.map (lineText memory (dumping settings) · elementsPerLine)).flatMap
            (ascii "\n\t" ++ ·) ++ ascii "\n"
        format := ⟨dumping settings, .right, 0, false⟩ } := by
  obtain ⟨first, rest, rfl⟩ := List.exists_cons_of_ne_nil nonempty
  have others : insertAll (rest.map fun part =>
      (insertText (ascii "\n\t")).andThen (printOneLine memory part elementsPerLine))
      ⟨dumping settings, .right, 0, false⟩ = _ :=
    insertAll_fixed fun part _ => indented_eq part 0
  have lines : insertAll ((first :: rest).map fun part =>
      (insertText (ascii "\n\t")).andThen (printOneLine memory part elementsPerLine))
      ⟨dumping settings, .right, width, false⟩ = _ :=
    (andThen_eq (indented_eq first width)).trans (by rw [others])
  rw [insertAll, andThen_eq lines, insertAll, andThen_eq (insertText_plain rfl rfl _), insertAll]
  simp [List.flatMap_map]

/-- What the function returns for every memory and what it prints on every stream that has not failed. -/
theorem dump_eq (memory : Pointer → UInt8) (mem : ArrayView) {format : Format} (good : format.failed = false) :
    ∃ parts inserter fillto, defaultFormatForLog memory mem = some (parts, inserter) ∧
      Divided memory mem parts ∧ (inserter format).throws = false ∧
        Arranged (parts.map (lineText memory (dumping format.settings) · fillto))
          (inserter format).text ∧
        (parts.length = 1 ∨ fillto = elementsPerLine ∧ ∀ part ∈ parts, part.size.toNat ≤ 20) := by
  have twenty : elementsPerLine.toNat = 20 := rfl
  unfold defaultFormatForLog
  by_cases small : mem.size ≤ elementsPerLine
  · have fits : mem.size.toNat ≤ 20 := small
    obtain ⟨text, throws⟩ := manipulators_eq good [printOneLine memory mem 0]
    rw [insertAll, andThen_eq (printOneLine_eq _), insertAll] at text throws
    refine ⟨[mem], _, 0, if_pos small, ⟨by simp, fun large => by omega⟩, throws,
      ⟨format.width - 1, .inl ⟨rfl, ?_⟩⟩, .inl rfl⟩
    rw [text]
    simp [dumping]
  · have large : ¬ mem.size.toNat ≤ 20 := small
    obtain ⟨parts, traversed, lines⟩ := traverse_lines memory mem
    have nonempty : parts ≠ [] := by
      rintro rfl
      have none_left := congrArg List.length lines.whole
      rw [ArrayView.elements, List.length_map, List.length_range] at none_left
      exact large (none_left ▸ Nat.zero_le 20)
    obtain ⟨text, throws⟩ := manipulators_eq good
      [insertAll (parts.map fun part =>
          (insertText (ascii "\n\t")).andThen (printOneLine memory part elementsPerLine)),
        insertText (ascii "\n")]
    rw [insertAll_indented nonempty] at text throws
    refine ⟨parts, _, elementsPerLine, ?_, ⟨lines.whole, fun _ => lines.full⟩, throws,
      ⟨format.width - 2, .inr text⟩, .inr ⟨rfl, lines.within⟩⟩
    rw [if_neg small, traversed]
    rfl

theorem halts_printOneLine (memory : Pointer → UInt8) (mem : ArrayView) (fillto : SizeT) :
    (printOneLine memory mem fillto).Halts := by
  have byte (b : UInt8) : (printByte b).Halts :=
    (halts_insertText _).andThen ((halts_setw 2).andThen ((halts_insertInteger _).andThen halts_nil))
  have bytes : (insertAll ((mem.elements memory).map printByte)).Halts := by
    apply halts_insertAll
    rw [List.forall_mem_map]
    exact fun b _ => byte b
  have fill : (insertAll (if fillto > mem.size then
      [insertText (space.take ((fillto - mem.size) * 3).toNat)] else [])).Halts := by
    split
    · exact (halts_insertText _).andThen halts_nil
    · exact halts_nil
  exact (halts_insertText _).andThen (bytes.andThen (fill.andThen ((halts_insertText _).andThen halts_nil)))

/-- A stream that has failed gets nothing of a dump. -/
theorem dump_failed {parts : List ArrayView} {inserter : Inserter} {format : Format}
    (returned : defaultFormatForLog memory mem = some (parts, inserter)) (failed : format.failed = true) :
    (inserter format).text = [] := by
  have nothing {body : List Inserter} (halts : (insertAll body).Halts) :
      (savingFlags (insertAll ([right, hex, setfill 48] ++ body)) format).text = [] := by
    have all : (insertAll ([right, hex, setfill 48] ++ body)).Halts :=
      halts_right.andThen (halts_hex.andThen ((halts_setfill 48).andThen halts))
    exact (halts_savingFlags all format failed).1
  unfold defaultFormatForLog at returned
  split at returned
  · obtain ⟨-, rfl⟩ := Prod.mk.inj (Option.some.inj returned)
    exact nothing ((halts_printOneLine memory mem 0).andThen halts_nil)
  · obtain ⟨found, -, same⟩ := Option.map_eq_some_iff.mp returned
    obtain ⟨-, rfl⟩ := Prod.mk.inj same
    have lines : (insertAll (found.map fun part =>
        (insertText (ascii "\n\t")).andThen (printOneLine memory part elementsPerLine))).Halts := by
      apply halts_insertAll
      rw [List.forall_mem_map]
      exact fun part _ => (halts_insertText _).andThen (halts_printOneLine memory part elementsPerLine)
    exact nothing (lines.andThen ((halts_insertText _).andThen halts_nil))

end Dumping

section Lines

variable {memory : Pointer → UInt8} {settings : Settings} {bytes : List UInt8} {char : UInt8}

/-- Where each byte has two digits, a line is what it should be, and its width is known. -/
theorem isLine_lineText {part : ArrayView} {fillto : SizeT}
    (two : ∀ b ∈ part.elements memory, IsTwoDigits b (byteText settings b)) :
    IsLine (part.elements memory) (lineText memory settings part fillto) ∧
      (lineText memory settings part fillto).length =
        3 + 3 * part.size.toNat + blanks part fillto := by
  constructor
  · refine ⟨(part.elements memory).map (byteText settings), blanks part fillto, ?_, ?_⟩
    · exact List.forall₂_map_right_iff.mpr (List.forall₂_same.mpr two)
    · rw [lineText, List.flatMap_map]
  · have width (b : UInt8) (member : b ∈ part.elements memory) :
        (ascii " " ++ byteText settings b).length = 3 := by
      have length := congrArg List.length (two b member)
      rw [List.length_map] at length
      rw [List.length_append, length]
      rfl
    have count : (part.elements memory).length = part.size.toNat := by
      rw [ArrayView.elements, List.length_map, List.length_range]
    rw [lineText, List.length_append, List.length_append, List.length_append, List.length_replicate,
      List.length_flatMap, List.map_congr_left width, List.map_const', List.sum_replicate_nat, count]
    simp only [ascii, String.length_toList, List.length_map]
    change 1 + part.size.toNat * 3 + blanks part fillto + 2 = _
    omega

/-- The blanks make up for the bytes that a line is short of. -/
theorem blanks_full {part : ArrayView} (within : part.size.toNat ≤ 20) :
    3 * part.size.toNat + blanks part elementsPerLine = 60 := by
  have twenty : elementsPerLine.toNat = 20 := rfl
  have missing : ((elementsPerLine - part.size) * 3).toNat = (20 - part.size.toNat) * 3 := by
    have three : (3 : SizeT).toNat = 3 := rfl
    rw [BitVec.toNat_mul, BitVec.toNat_sub_of_le (BitVec.le_def.mpr within), twenty, three]
    omega
  unfold blanks
  split
  · omega
  · rename_i filled
    have filled : ¬ part.size.toNat < 20 := filled
    omega

theorem exists_related {α β : Type*} {R : α → β → Prop} {xs : List α} {ys : List β} {y : β}
    (related : List.Forall₂ R xs ys) (member : y ∈ ys) : ∃ x ∈ xs, R x y := by
  induction related with
  | nil => contradiction
  | @cons x _ xs _ here _ ih =>
      rcases List.mem_cons.mp member with rfl | member
      · exact ⟨x, List.mem_cons_self, here⟩
      · obtain ⟨found, later, holds⟩ := ih member
        exact ⟨found, List.mem_cons_of_mem x later, holds⟩

theorem framed {text : Text} (all : text.all (frame.contains ·) = true) (member : char ∈ text) :
    char ∈ frame :=
  List.contains_iff_mem.mp (List.all_eq_true.mp all char member)

/-- A line consists of digits and of what stands around them. -/
theorem mem_line {line : Text} (isLine : IsLine bytes line) (member : char ∈ line) :
    hexValue char ≠ none ∨ char ∈ frame := by
  obtain ⟨digits, count, two, rfl⟩ := isLine
  simp only [List.mem_append, List.mem_flatMap] at member
  rcases member with ((opening | ⟨number, shown, blank | digit⟩) | filled) | closing
  · exact .inr (framed (by decide) opening)
  · exact .inr (framed (by decide) blank)
  · obtain ⟨b, -, twoDigits⟩ := exists_related two shown
    have valued := List.mem_map_of_mem (f := hexValue) digit
    rw [twoDigits] at valued
    refine .inl fun unvalued => ?_
    simp [unvalued] at valued
  · rw [List.eq_of_mem_replicate filled]
    exact .inr (by decide)
  · exact .inr (framed (by decide) closing)

theorem mem_arranged {lines : List Text} {text : Text} (arranged : Arranged lines text)
    (member : char ∈ text) : char ∈ frame ∨ ∃ line ∈ lines, char ∈ line := by
  have padded (count : Nat) (member : char ∈ List.replicate count (48 : UInt8)) : char ∈ frame := by
    rw [List.eq_of_mem_replicate member]
    decide
  obtain ⟨count, ⟨-, rfl⟩ | rfl⟩ := arranged
  · rcases List.mem_append.mp member with padding | member
    · exact .inl (padded count padding)
    · exact .inr (List.mem_flatten.mp member)
  · simp only [List.mem_append, List.mem_flatMap] at member
    rcases member with (padding | ⟨line, shown, indent | member⟩) | newline
    · exact .inl (padded count padding)
    · exact .inl (framed (by decide) indent)
    · exact .inr ⟨line, shown, member⟩
    · exact .inl (framed (by decide) newline)

theorem mem_of_arranged {lines : List Text} {text line : Text} (arranged : Arranged lines text)
    (shown : line ∈ lines) (member : char ∈ line) : char ∈ text := by
  obtain ⟨count, ⟨-, rfl⟩ | rfl⟩ := arranged
  · exact List.mem_append_right _ (List.mem_flatten.mpr ⟨line, shown, member⟩)
  · exact List.mem_append_left _ (List.mem_append_right _
      (List.mem_flatMap.mpr ⟨line, shown, List.mem_append_right _ member⟩))

end Lines

section Dumps

variable {memory : Pointer → UInt8} {mem : ArrayView} {format : Format}

/-- Each line has at least its bracket. -/
theorem Arranged.nonempty {lines : List Text} {text : Text} (arranged : Arranged lines text)
    (shown : ∀ line ∈ lines, line ≠ []) : text ≠ [] := by
  obtain ⟨padding, ⟨one, rfl⟩ | rfl⟩ := arranged
  · obtain ⟨line, rfl⟩ := List.length_eq_one_iff.mp one
    have bracket := shown line List.mem_cons_self
    simp [bracket]
  · simp [ascii]

/-- A dump is no dump where nothing is shown. -/
theorem Dumps.good (dumps : Dumps memory mem format) : format.failed = false := by
  obtain ⟨parts, inserter, returned, -, -, lines, arranged, shown, -⟩ := dumps
  by_contra failed
  rw [Bool.not_eq_false] at failed
  refine arranged.nonempty ?_ (dump_failed returned failed)
  intro line among
  obtain ⟨part, -, isLine⟩ := exists_related shown among
  obtain ⟨digits, blanks, -, rfl⟩ := isLine
  simp [ascii]

/-- The mark of a base can be neither on a line of digits nor around the lines. -/
theorem Dumps.unmarked (dumps : Dumps memory mem format) :
    format.settings.showbase = false ∨ ∀ b ∈ mem.elements memory, b = 0 := by
  have good := dumps.good
  obtain ⟨parts, inserter, returned, divided, -, lines, right, shown, -⟩ := dumps
  obtain ⟨_, _, fillto, again, -, -, arranged, -⟩ := dump_eq memory mem good
  obtain ⟨rfl, rfl⟩ := Prod.mk.inj (Option.some.inj (returned.symm.trans again))
  by_contra wrong
  simp only [not_or, not_forall, Bool.not_eq_false] at wrong
  obtain ⟨base, b, member, nonzero⟩ := wrong
  obtain ⟨mark, marks, unvalued, apart⟩ := byteText_marked base nonzero
  rw [← divided.whole, List.mem_flatMap] at member
  obtain ⟨part, among, member⟩ := member
  have inLine : mark ∈ lineText memory (dumping format.settings) part fillto := by
    simp only [lineText, List.mem_append, List.mem_flatMap]
    exact .inl (.inl (.inr ⟨b, member, .inr marks⟩))
  have inText := mem_of_arranged arranged (List.mem_map_of_mem among) inLine
  rcases mem_arranged right inText with framed | ⟨line, among, inLine⟩
  · exact apart framed
  · obtain ⟨part, -, isLine⟩ := exists_related shown among
    exact (mem_line isLine inLine).elim (· unvalued) apart

theorem dumps_of_unmarked (good : format.failed = false)
    (unmarked : format.settings.showbase = false ∨ ∀ b ∈ mem.elements memory, b = 0) :
    Dumps memory mem format := by
  obtain ⟨parts, inserter, fillto, returned, divided, completes, arranged, widths⟩ :=
    dump_eq memory mem good
  have two (part : ArrayView) (among : part ∈ parts) (b : UInt8)
      (member : b ∈ part.elements memory) :
      IsTwoDigits b (byteText (dumping format.settings) b) :=
    byteText_twoDigits (unmarked.imp_right fun zero =>
      zero b (divided.whole ▸ List.mem_flatMap.mpr ⟨part, among, member⟩))
  refine ⟨parts, inserter, returned, divided, completes, _, arranged, ?_, ?_⟩
  · exact List.forall₂_map_right_iff.mpr (List.forall₂_same.mpr fun part among =>
      (isLine_lineText (two part among)).1)
  · rcases widths with one | ⟨rfl, within⟩
    · obtain ⟨part, rfl⟩ := List.length_eq_one_iff.mp one
      simp
    · have width (line : Text) (shown : line ∈ parts.map
          (lineText memory (dumping format.settings) · elementsPerLine)) : line.length = 63 := by
        obtain ⟨part, among, rfl⟩ := List.mem_map.mp shown
        have filled := blanks_full (within part among)
        rw [(isLine_lineText (two part among)).2]
        omega
      exact fun first amongFirst second amongSecond =>
        (width first amongFirst).trans (width second amongSecond).symm

end Dumps

/-- A dump is right exactly on streams that have not failed and do not show the base, or where no byte has one
to show. -/
theorem dumps_iff (memory : Pointer → UInt8) (mem : ArrayView) (format : Format) :
    Dumps memory mem format ↔
      format.failed = false ∧ (format.settings.showbase = false ∨ ∀ b ∈ mem.elements memory, b = 0) :=
  ⟨fun dumps => ⟨dumps.good, dumps.unmarked⟩, fun both => dumps_of_unmarked both.1 both.2⟩

/-- On a stream that shows the base, the byte five has three characters. -/
theorem dumps_showbase :
    ¬ Dumps (fun _ => 5) ⟨⟨some 0, 0⟩, 1⟩ { settings := { showbase := true } } := by
  intro dumps
  rcases dumps.unmarked with hidden | zero
  · contradiction
  · exact absurd (zero 5 (by decide)) (by decide)

end MartCommon.Log
