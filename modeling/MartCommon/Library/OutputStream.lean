import MartCommon.Library.Decimal

namespace MartCommon.Library

namespace OutputStream

/-- Where the fill characters stand. -/
inductive Adjust where
  | left
  | right
  | internal
  deriving DecidableEq

inductive Base where
  | oct
  | dec
  | hex
  deriving DecidableEq

/-- The flags of a stream without the adjustment, where those that only other insertions look at are a bit
mask, its fill character and its precision. -/
structure Settings where
  base : Base := .dec
  showbase : Bool := false
  showpos : Bool := false
  uppercase : Bool := false
  otherFlags : Nat := 0
  fill : UInt8 := 32
  precision : Nat := 6
  deriving DecidableEq

/-- How a stream formats what is inserted, and whether `badbit` or `failbit` is set. The width holds for the
next insertion only. The locale and the exception mask are those of a new stream. -/
structure Format where
  settings : Settings := {}
  adjust : Adjust := .right
  width : Nat := 0
  failed : Bool := false
  deriving DecidableEq

/-- What an insertion appends and how it leaves the format. It may throw behind a part of its text, or make
the stream fail without that. -/
structure Inserted where
  text : Text := []
  format : Format
  throws : Bool := false
  deriving DecidableEq

/-- Something that can be inserted. -/
abbrev Inserter := Format → Inserted

/-- An output stream with the text that it holds. -/
structure Stream where
  text : Text := []
  format : Format := {}
  deriving DecidableEq

section Composition

/-- The second insertion follows unless the first one throws. -/
def Inserter.andThen (first second : Inserter) : Inserter := fun format =>
  if (first format).throws then first format
  else
    let next := second (first format).format
    { next with text := (first format).text ++ next.text }

/-- One insertion after the other. -/
def insertAll : List Inserter → Inserter
  | [] => fun format => { format := format }
  | first :: rest => first.andThen (insertAll rest)

/-- What is inserted into a stream stands behind its text, also where the insertion throws. -/
def Stream.insert (stream : Stream) (inserter : Inserter) : Stream :=
  ⟨stream.text ++ (inserter stream.format).text, (inserter stream.format).format⟩

variable {first second : Inserter} {format : Format}

theorem andThen_throws (throws : (first format).throws = true) :
    first.andThen second format = first format := by
  rw [Inserter.andThen, if_pos throws]

theorem andThen_completes (completes : (first format).throws = false) :
    first.andThen second format =
      { second (first format).format with
        text := (first format).text ++ (second (first format).format).text } := by
  rw [Inserter.andThen, if_neg (by rw [completes]; exact Bool.false_ne_true)]

/-- The second insertion follows on what the first one is known to do. -/
theorem andThen_eq {text : Text} {next : Format} (done : first format = { text := text, format := next }) :
    first.andThen second format = { second next with text := text ++ (second next).text } := by
  rw [andThen_completes (by rw [done]), done]

/-- The text of the first insertion is there in any case. -/
theorem andThen_begins (first second : Inserter) (format : Format) :
    (first format).text <+: (first.andThen second format).text := by
  by_cases throws : (first format).throws = true
  · refine ⟨[], ?_⟩
    rw [andThen_throws throws, List.append_nil]
  · rw [andThen_completes (Bool.eq_false_iff.mpr throws)]
    exact List.prefix_append _ _

/-- Where the whole does not throw, neither part does. -/
theorem completes_andThen : (first.andThen second format).throws = false ↔
    (first format).throws = false ∧ (second (first format).format).throws = false := by
  by_cases throws : (first format).throws = true
  · rw [andThen_throws throws]
    simp [throws]
  · rw [Bool.not_eq_true] at throws
    rw [andThen_completes throws]
    simp [throws]

/-- What comes first decides how a format matters. -/
theorem andThen_congr {other : Format} (same : first format = first other) :
    first.andThen second format = first.andThen second other := by
  rw [Inserter.andThen, Inserter.andThen, same]

theorem andThen_assoc (first second third : Inserter) :
    (first.andThen second).andThen third = first.andThen (second.andThen third) := by
  funext format
  by_cases throws : (first format).throws = true
  · rw [andThen_throws throws, andThen_throws (by rwa [andThen_throws throws]), andThen_throws throws]
  · rw [Bool.not_eq_true] at throws
    rw [andThen_completes throws]
    by_cases later : (second (first format).format).throws = true
    · rw [andThen_throws later, andThen_throws (by rwa [andThen_completes throws]),
        andThen_completes throws]
    · rw [Bool.not_eq_true] at later
      rw [andThen_completes later, andThen_completes (by rwa [andThen_completes throws]),
        andThen_completes throws, List.append_assoc]

/-- Insertions that keep the settings of a format do so one after the other. -/
def Inserter.Keeps (inserter : Inserter) : Prop :=
  ∀ format, (inserter format).format.settings = format.settings

/-- Insertions that may change the flags, but not the precision. -/
def Inserter.KeepsPrecision (inserter : Inserter) : Prop :=
  ∀ format, (inserter format).format.settings.precision = format.settings.precision

/-- A stream that has not failed does not fail either behind a steady insertion. -/
def Inserter.Steady (inserter : Inserter) : Prop :=
  ∀ format, format.failed = false → (inserter format).format.failed = false

/-- Nothing goes into a stream that has failed, and it stays so. -/
def Inserter.Halts (inserter : Inserter) : Prop :=
  ∀ format, format.failed = true → (inserter format).text = [] ∧ (inserter format).format.failed = true

theorem Inserter.Keeps.andThen (first' : first.Keeps) (second' : second.Keeps) :
    (first.andThen second).Keeps := by
  intro format
  by_cases throws : (first format).throws = true
  · rw [andThen_throws throws, first']
  · rw [Bool.not_eq_true] at throws
    rw [andThen_completes throws]
    exact (second' _).trans (first' format)

theorem Inserter.Keeps.precision (keeps : first.Keeps) : first.KeepsPrecision :=
  fun format => congrArg Settings.precision (keeps format)

theorem Inserter.KeepsPrecision.andThen (first' : first.KeepsPrecision) (second' : second.KeepsPrecision) :
    (first.andThen second).KeepsPrecision := by
  intro format
  by_cases throws : (first format).throws = true
  · rw [andThen_throws throws, first']
  · rw [Bool.not_eq_true] at throws
    rw [andThen_completes throws]
    exact (second' _).trans (first' format)

theorem Inserter.Steady.andThen (first' : first.Steady) (second' : second.Steady) :
    (first.andThen second).Steady := by
  intro format good
  by_cases throws : (first format).throws = true
  · rw [andThen_throws throws]
    exact first' format good
  · rw [Bool.not_eq_true] at throws
    rw [andThen_completes throws]
    exact second' _ (first' format good)

theorem Inserter.Halts.andThen (first' : first.Halts) (second' : second.Halts) :
    (first.andThen second).Halts := by
  intro format failed
  by_cases throws : (first format).throws = true
  · rw [andThen_throws throws]
    exact first' format failed
  · rw [Bool.not_eq_true] at throws
    obtain ⟨nothing, still⟩ := first' format failed
    rw [andThen_completes throws, nothing]
    exact second' _ still

/-- What holds of an insertion of nothing and of two insertions one after the other holds of all of them. -/
theorem insertAll_induction {holds : Inserter → Prop} (none : holds (insertAll []))
    (both : ∀ {first second : Inserter}, holds first → holds second → holds (first.andThen second))
    {inserters : List Inserter} (each : ∀ inserter ∈ inserters, holds inserter) : holds (insertAll inserters) := by
  induction inserters with
  | nil => exact none
  | cons first rest ih =>
      obtain ⟨here, others⟩ := List.forall_mem_cons.mp each
      exact both here (ih others)

theorem keeps_insertAll {inserters : List Inserter} (keeps : ∀ inserter ∈ inserters, inserter.Keeps) :
    (insertAll inserters).Keeps :=
  insertAll_induction (fun _ => rfl) Inserter.Keeps.andThen keeps

theorem steady_insertAll {inserters : List Inserter} (steady : ∀ inserter ∈ inserters, inserter.Steady) :
    (insertAll inserters).Steady :=
  insertAll_induction (fun _ good => good) Inserter.Steady.andThen steady

theorem halts_nil : (insertAll []).Halts := fun _ failed => ⟨rfl, failed⟩

theorem halts_insertAll {inserters : List Inserter} (halts : ∀ inserter ∈ inserters, inserter.Halts) :
    (insertAll inserters).Halts :=
  insertAll_induction halts_nil Inserter.Halts.andThen halts

end Composition

section Standard

/-- A sign or a base in front of the digits, and the padding. -/
def Format.pad (format : Format) (front rest : Text) : Text :=
  let padding := List.replicate (format.width - (front.length + rest.length)) format.settings.fill
  match format.adjust with
  | .left => front ++ rest ++ padding
  | .right => padding ++ front ++ rest
  | .internal => front ++ padding ++ rest

/-- A formatted output function does nothing on a stream that has failed. The text goes to an
`ostringstream`, whose memory suffices. -/
def formatted (shown : Format → Text) : Inserter := fun format =>
  if format.failed then { format := format }
  else { text := shown format, format := { format with width := 0 } }

/-- `operator<<` of a string. -/
def insertText (text : Text) : Inserter := formatted fun format => format.pad [] text

/-- The digits of a number, in lower case or in upper case. -/
def digits (uppercase : Bool) (base number : Nat) : Text :=
  (Nat.toDigits base number).map fun char =>
    UInt8.ofNat (if uppercase then char.toUpper else char).toNat

/-- The sign or the base `0x`, and the digits of a `long long`. Other bases than the decimal one show
it as an unsigned number. -/
def Settings.integer (settings : Settings) (value : Int) : Text × Text :=
  let unsigned := (BitVec.ofInt 64 value).toNat
  match settings.base with
  | .dec =>
      (if value < 0 then ascii "-" else if settings.showpos then ascii "+" else [],
        digits false 10 value.natAbs)
  | .oct =>
      ([], (if settings.showbase && unsigned ≠ 0 then ascii "0" else []) ++ digits false 8 unsigned)
  | .hex =>
      (if settings.showbase && unsigned ≠ 0 then ascii (if settings.uppercase then "0X" else "0x")
        else [], digits settings.uppercase 16 unsigned)

/-- `operator<<( long long )`. -/
def insertInteger (value : Int) : Inserter := formatted fun format =>
  let parts := format.settings.integer value
  format.pad parts.1 parts.2

/-- `std::left`. -/
def left : Inserter := fun format => { format := { format with adjust := .left } }

/-- `std::right`. -/
def right : Inserter := fun format => { format := { format with adjust := .right } }

/-- `std::setfill( c )`. -/
def setfill (fill : UInt8) : Inserter := fun format =>
  { format := { format with settings := { format.settings with fill := fill } } }

/-- `std::hex`. -/
def hex : Inserter := fun format =>
  { format := { format with settings := { format.settings with base := .hex } } }

/-- `std::setw( n )`. -/
def setw (n : Nat) : Inserter := fun format => { format := { format with width := n } }

/-- Insertions after which the flags and the fill character come back, also where one throws. The width, the
precision and a failure stay. -/
def savingFlags (inserter : Inserter) : Inserter := fun format =>
  let after := (inserter format).format
  { inserter format with
    format := { format with
      settings := { format.settings with precision := after.settings.precision }
      width := after.width
      failed := after.failed } }

section Formatted

variable {shown : Format → Text} {format : Format}

theorem formatted_good (good : format.failed = false) :
    formatted shown format = { text := shown format, format := { format with width := 0 } } := by
  rw [formatted, good]
  rfl

theorem formatted_failed (failed : format.failed = true) : formatted shown format = { format := format } := by
  rw [formatted, failed]
  rfl

theorem keeps_formatted (shown : Format → Text) : (formatted shown).Keeps := by
  intro format
  cases failed : format.failed with
  | false => rw [formatted_good failed]
  | true => rw [formatted_failed failed]

theorem steady_formatted (shown : Format → Text) : (formatted shown).Steady := by
  intro format good
  rw [formatted_good good]
  exact good

theorem halts_formatted (shown : Format → Text) : (formatted shown).Halts := by
  intro format failed
  rw [formatted_failed failed]
  exact ⟨rfl, failed⟩

end Formatted

theorem keeps_insertText (text : Text) : (insertText text).Keeps := keeps_formatted _

theorem keeps_insertInteger (value : Int) : (insertInteger value).Keeps := keeps_formatted _

theorem keeps_left : left.Keeps := fun _ => rfl

theorem keeps_setw (n : Nat) : (setw n).Keeps := fun _ => rfl

theorem keepsPrecision_hex : hex.KeepsPrecision := fun _ => rfl

theorem keeps_savingFlags {inserter : Inserter} (keeps : inserter.KeepsPrecision) :
    (savingFlags inserter).Keeps := by
  intro format
  have same := keeps format
  show { format.settings with precision := (inserter format).format.settings.precision } = format.settings
  rw [same]

theorem steady_insertText (text : Text) : (insertText text).Steady := steady_formatted _

theorem steady_insertInteger (value : Int) : (insertInteger value).Steady := steady_formatted _

theorem steady_left : left.Steady := fun _ good => good

theorem steady_hex : hex.Steady := fun _ good => good

theorem steady_setw (n : Nat) : (setw n).Steady := fun _ good => good

theorem steady_savingFlags {inserter : Inserter} (steady : inserter.Steady) : (savingFlags inserter).Steady :=
  steady

theorem halts_insertText (text : Text) : (insertText text).Halts := halts_formatted _

theorem halts_insertInteger (value : Int) : (insertInteger value).Halts := halts_formatted _

theorem halts_right : right.Halts := fun _ failed => ⟨rfl, failed⟩

theorem halts_hex : hex.Halts := fun _ failed => ⟨rfl, failed⟩

theorem halts_setfill (fill : UInt8) : (setfill fill).Halts := fun _ failed => ⟨rfl, failed⟩

theorem halts_setw (n : Nat) : (setw n).Halts := fun _ failed => ⟨rfl, failed⟩

theorem halts_savingFlags {inserter : Inserter} (halts : inserter.Halts) : (savingFlags inserter).Halts :=
  halts

/-- Without a width, a string goes into the stream as it is. -/
theorem insertText_plain {format : Format} (plain : format.width = 0) (good : format.failed = false)
    (text : Text) : insertText text format = { text := text, format := format } := by
  have kept : { format with width := 0 } = format := by
    rw [← plain]
  have shown : format.pad [] text = text := by
    rw [Format.pad, plain, Nat.zero_sub, List.replicate_zero]
    cases format.adjust <;> simp
  rw [insertText, formatted_good good, shown, kept]

/-- Insertions that leave a format as it is put their texts into the stream one after the other. -/
theorem insertAll_fixed {Item : Type*} {format : Format} {inserter : Item → Inserter}
    {text : Item → Text} {items : List Item}
    (fixed : ∀ item ∈ items, inserter item format = { text := text item, format := format }) :
    insertAll (items.map inserter) format = { text := items.flatMap text, format := format } := by
  induction items with
  | nil => rfl
  | cons item rest ih =>
      obtain ⟨here, others⟩ := List.forall_mem_cons.mp fixed
      rw [List.map_cons, insertAll, andThen_eq here, ih others, List.flatMap_cons]

/-- Without a width, several strings do so. -/
theorem insertAll_plain {format : Format} (plain : format.width = 0) (good : format.failed = false)
    (texts : List Text) :
    insertAll (texts.map insertText) format = { text := texts.flatten, format := format } := by
  rw [insertAll_fixed fun text _ => insertText_plain plain good text, List.flatMap_id']

/-- To the right, the padding of a string stands in front of it. -/
theorem insertText_right (settings : Settings) (width : Nat) (text : Text) :
    insertText text ⟨settings, .right, width, false⟩ =
      { text := List.replicate (width - text.length) settings.fill ++ text
        format := ⟨settings, .right, 0, false⟩ } := by
  rw [insertText, formatted_good rfl]
  simp [Format.pad]

/-- Padding takes nothing away. -/
theorem length_le_pad (format : Format) (front rest : Text) :
    rest.length ≤ (format.pad front rest).length := by
  unfold Format.pad
  cases format.adjust <;> simp only [List.length_append, List.length_replicate] <;> omega

end Standard

end OutputStream

end MartCommon.Library
