import MartCommon.Library.Cutting
import MartCommon.Mba.Shown

namespace MartCommon.Mba

open Library Library.RefCount

variable {contents : Block → Option Text} {chars front tail text : Text} {delimiter : UInt8}
  {pos : Nat}

theorem findIdx_absent (absent : delimiter ∉ text) : text.findIdx? (· == delimiter) = none := by
  rw [List.findIdx?_eq_none_iff]
  intro char member
  exact beq_eq_false_iff_ne.mpr fun same => absent (same ▸ member)

theorem findIdx_first (absent : delimiter ∉ front) :
    (front ++ delimiter :: tail).findIdx? (· == delimiter) = some front.length := by
  rw [List.findIdx?_append, findIdx_absent absent, List.findIdx?_cons]
  simp

theorem find_absent (absent : delimiter ∉ chars.drop pos) : find chars delimiter pos = npos := by
  rw [find, findIdx_absent absent]

theorem find_first (rest : chars.drop pos = front ++ delimiter :: tail) (absent : delimiter ∉ front) :
    find chars delimiter pos = pos + front.length := by
  rw [find, rest, findIdx_first absent]

/-- Behind the first delimiter is the tail. -/
theorem drop_behind (rest : chars.drop pos = front ++ delimiter :: tail) :
    chars.drop (pos + front.length + 1) = tail ∧ pos + front.length + 1 ≤ chars.length := by
  constructor
  · rw [Nat.add_assoc, ← List.drop_drop, rest, List.drop_length_add_append]
    rfl
  · have total := congrArg List.length rest
    rw [List.length_drop, List.length_append, List.length_cons] at total
    omega

/-- The search begins behind the first character of the slice. -/
def Split.skips (s : Split) : Nat := if s = .before then 1 else 0

/-- The slice has the delimiter at its end. -/
def Split.keeps (s : Split) : Nat := if s = .after then 1 else 0

/-- The next slice begins behind the delimiter. -/
def Split.passes (s : Split) : Nat := if s = .drop ∨ s = .after then 1 else 0

namespace Split

theorem keeps_le (s : Split) : s.keeps ≤ s.passes := by
  cases s <;> decide

theorem passes_le (s : Split) : s.passes ≤ 1 := by
  cases s <;> decide

end Split

namespace ImStr

variable {this : ImStr} {s : Split} {left startPos : Nat}

/-- The slices of a string are shown by their views. -/
def Slices (contents : Block → Option Text) (slices : List ImStr) (pieces : List Text) : Prop :=
  List.Forall₂ (fun slice piece => slice.view.Shows contents piece) slices pieces

/-- One turn of the loop. No slice is counted, so that its handle is written only. -/
theorem returns_splitLoop {post : List ImStr × Nat → Prop} :
    (this.splitLoop chars delimiter s (left + 1) startPos).Returns contents post ↔
      ∃ view, this.view.substr startPos
          (sizeT (find chars delimiter (sizeT (startPos + s.skips)) + (2 ^ 64 - startPos) +
            s.keeps)) = some view ∧
        (this.splitLoop chars delimiter s left
          (sizeT (find chars delimiter (sizeT (startPos + s.skips)) + s.passes))).Returns contents
          fun others => post (⟨.imStr, view, this.handle⟩ :: others.1, others.2) := by
  rw [splitLoop]
  simp only [Split.skips, Split.keeps, Split.passes]
  cases this.view.substr startPos _ with
  | none => simp
  | some view =>
      simp only [Option.some.injEq, exists_eq_left']
      change ((this.splitLoop chars delimiter s left _).bind _).Returns contents post ↔ _
      exact Program.returns_bind

/-- A turn that finds a delimiter makes a slice up to it, or up to it and with it. -/
theorem splitLoop_found (s : Split) (left : Nat) (shown : this.view.Shows contents chars)
    (rest : chars.drop (startPos + s.skips) = front ++ delimiter :: tail)
    (absent : delimiter ∉ front) :
    ∃ slice : ImStr,
      slice.view.Shows contents ((chars.drop startPos).take (s.skips + front.length + s.keeps)) ∧
      ∀ post, (this.splitLoop chars delimiter s (left + 1) startPos).Returns contents post ↔
        (this.splitLoop chars delimiter s left
          (startPos + s.skips + front.length + s.passes)).Returns contents
          fun others => post (slice :: others.1, others.2) := by
  have bounded := shown.length ▸ shown.bounded
  have total := congrArg List.length rest
  rw [List.length_drop, List.length_append, List.length_cons] at total
  have keeps := s.keeps_le
  have passes := s.passes_le
  have search : sizeT (startPos + s.skips) = startPos + s.skips := Nat.mod_eq_of_lt (by omega)
  have count : sizeT (startPos + s.skips + front.length + (2 ^ 64 - startPos) + s.keeps) =
      s.skips + front.length + s.keeps := by
    rw [sizeT]
    omega
  have next : sizeT (startPos + s.skips + front.length + s.passes) =
      startPos + s.skips + front.length + s.passes := Nat.mod_eq_of_lt (by omega)
  obtain ⟨part, taken, shows⟩ := shown.substr startPos
    (s.skips + front.length + s.keeps) (by omega)
  refine ⟨⟨.imStr, part, this.handle⟩, shows, fun post => ?_⟩
  rw [returns_splitLoop, search, find_first rest absent, count, next, taken]
  simp only [Option.some.injEq, exists_eq_left']

/-- A turn that finds no delimiter takes what is there, unless the count of characters wraps around
to zero. -/
theorem splitLoop_missing (s : Split) (left : Nat) (shown : this.view.Shows contents chars)
    (within : startPos + s.skips ≤ chars.length)
    (absent : delimiter ∉ chars.drop (startPos + s.skips)) :
    ∃ slice : ImStr,
      slice.view.Shows contents (if s.keeps = 1 ∧ startPos = 0 then [] else chars.drop startPos) ∧
      ∀ post, (this.splitLoop chars delimiter s (left + 1) startPos).Returns contents post ↔
        (this.splitLoop chars delimiter s left (sizeT (npos + s.passes))).Returns contents
          fun others => post (slice :: others.1, others.2) := by
  have bounded := shown.length ▸ shown.bounded
  have keeps := s.keeps_le
  have passes := s.passes_le
  have search : find chars delimiter (sizeT (startPos + s.skips)) = npos := by
    rw [sizeT, Nat.mod_eq_of_lt (by omega)]
    exact find_absent absent
  have all : (chars.drop startPos).take (sizeT (npos + (2 ^ 64 - startPos) + s.keeps)) =
      if s.keeps = 1 ∧ startPos = 0 then [] else chars.drop startPos := by
    unfold sizeT npos
    split
    · rename_i wraps
      obtain ⟨one, rfl⟩ := wraps
      rw [one]
      rfl
    · apply List.take_of_length_le
      rw [List.length_drop]
      omega
  obtain ⟨part, taken, shows⟩ := shown.substr startPos
    (sizeT (npos + (2 ^ 64 - startPos) + s.keeps)) (by omega)
  refine ⟨⟨.imStr, part, this.handle⟩, all ▸ shows, fun post => ?_⟩
  rw [returns_splitLoop, search, taken]
  simp only [Option.some.injEq, exists_eq_left']

/-- Where the slice ends in front of a delimiter or behind it, the loop cuts the rest of the text at each
delimiter. -/
theorem returns_splitLoop_cut (Cut : Text → List Text → Prop) (passes : s.passes = 1)
    (whole : ∀ text, delimiter ∉ text → Cut text [text])
    (cons : ∀ front tail pieces, delimiter ∉ front → Cut tail pieces →
      Cut (front ++ delimiter :: tail) ((front ++ [delimiter].take s.keeps) :: pieces))
    (shown : this.view.Shows contents chars) (within : startPos ≤ chars.length)
    (counted : left = 1 + (chars.drop startPos).count delimiter)
    (starts : s.keeps = 0 ∨ startPos ≠ 0 ∨ delimiter ∈ chars) :
    (this.splitLoop chars delimiter s left startPos).Returns contents fun result =>
      result.2 = sizeT (npos + s.passes) ∧
        ∃ pieces, Slices contents result.1 pieces ∧ Cut (chars.drop startPos) pieces := by
  have skips : s.skips = 0 := by
    cases s with
    | drop => rfl
    | after => rfl
    | before => contradiction
  induction left generalizing startPos with
  | zero => omega
  | succ left ih =>
      by_cases present : delimiter ∈ chars.drop startPos
      · obtain ⟨front, tail, rest, absent⟩ := List.eq_append_cons_of_mem present
        have search : chars.drop (startPos + s.skips) = front ++ delimiter :: tail := by
          rw [skips]
          exact rest
        obtain ⟨slice, shows, turn⟩ := splitLoop_found s left shown search absent
        obtain ⟨behind, ahead⟩ := drop_behind search
        have kept : (delimiter :: tail).take s.keeps = [delimiter].take s.keeps := by
          cases s <;> rfl
        rw [skips, rest, Nat.zero_add, List.take_length_add_append, kept] at shows
        rw [turn, passes]
        refine (ih ahead ?_ (.inr (.inl (Nat.succ_ne_zero _)))).mono fun others ends => ?_
        · rw [behind]
          rw [rest, count_firstMark absent] at counted
          omega
        · obtain ⟨last, pieces, shownOthers, cut⟩ := ends
          rw [behind] at cut
          rw [rest]
          exact ⟨passes ▸ last, _, .cons shows shownOthers, cons front tail pieces absent cut⟩
      · rw [List.count_eq_zero_of_not_mem present] at counted
        obtain rfl : left = 0 := by omega
        have search : delimiter ∉ chars.drop (startPos + s.skips) := by
          rwa [skips]
        obtain ⟨slice, shows, turn⟩ :=
          splitLoop_missing s 0 shown (by rwa [skips]) search
        have unwrapped : ¬ (s.keeps = 1 ∧ startPos = 0) := by
          rintro ⟨keeps, rfl⟩
          rcases starts with none | nonzero | present'
          · omega
          · exact nonzero rfl
          · exact present present'
        rw [if_neg unwrapped] at shows
        rw [turn]
        exact ⟨rfl, _, .cons shows .nil, whole _ present⟩

/-- With its delimiter in front, a slice has a first character that the search skips. -/
theorem drop_skips {char : UInt8} (rest : chars.drop startPos = char :: text) :
    chars.drop (startPos + Split.before.skips) = text ∧
      startPos + Split.before.skips ≤ chars.length :=
  drop_behind (show chars.drop startPos = [] ++ char :: text from rest)

/-- The next slice begins with the delimiter that the search found. -/
theorem drop_passes (behind : chars.drop (startPos + Split.before.skips) = front ++ delimiter :: tail) :
    chars.drop (startPos + Split.before.skips + front.length + Split.before.passes) =
      delimiter :: tail := by
  change chars.drop (startPos + Split.before.skips + front.length) = _
  rw [← List.drop_drop, behind, List.drop_left]

/-- Where the slice has its delimiter in front, the loop looks for the next delimiter behind the first
character. -/
theorem returns_splitLoop_before {char : UInt8} (shown : this.view.Shows contents chars)
    (rest : chars.drop startPos = char :: text) (counted : left = 1 + text.count delimiter) :
    (this.splitLoop chars delimiter .before left startPos).Returns contents fun result =>
      result.2 = sizeT (npos + Split.before.passes) ∧
        ∃ pieces, Slices contents result.1 (pieces.modifyHead (char :: ·)) ∧
          CutBefore delimiter text pieces := by
  induction left generalizing startPos char text with
  | zero => omega
  | succ left ih =>
      obtain ⟨behind, within⟩ := drop_skips rest
      by_cases present : delimiter ∈ text
      · obtain ⟨front, tail, rfl, absent⟩ := List.eq_append_cons_of_mem present
        obtain ⟨slice, shows, turn⟩ := splitLoop_found .before left shown behind absent
        have next := drop_passes behind
        have part : (char :: (front ++ delimiter :: tail)).take
            (Split.before.skips + front.length + Split.before.keeps) = char :: front := by
          change (char :: (front ++ delimiter :: tail)).take (1 + front.length) = _
          rw [Nat.add_comm, List.take_succ_cons, List.take_left]
        rw [rest, part] at shows
        rw [turn]
        rw [count_firstMark absent] at counted
        refine (ih next (by omega)).mono fun others ends => ?_
        obtain ⟨last, pieces, shownOthers, cut⟩ := ends
        exact ⟨last, front :: pieces.modifyHead (delimiter :: ·), .cons shows shownOthers,
          .cons absent cut⟩
      · rw [List.count_eq_zero_of_not_mem present] at counted
        obtain rfl : left = 0 := by omega
        obtain ⟨slice, shows, turn⟩ := splitLoop_missing .before 0 shown within
          (behind ▸ present)
        rw [if_neg (fun both => absurd both.1 (by decide)), rest] at shows
        rw [turn]
        exact ⟨rfl, [text], .cons shows .nil, .whole present⟩

/-- With a slice too many, the loop goes on from `npos`, so that it throws an exception, or finds the
delimiter at the front again. -/
theorem returns_splitLoop_surplus {char : UInt8} {post : List ImStr × Nat → Prop}
    (shown : this.view.Shows contents chars) (leading : chars.head? = some delimiter)
    (rest : chars.drop startPos = char :: text) (counted : left = 2 + text.count delimiter) :
    ¬ (this.splitLoop chars delimiter .before left startPos).Returns contents fun result =>
      result.2 = npos ∧ post result := by
  induction left generalizing startPos char text post with
  | zero => omega
  | succ left ih =>
      obtain ⟨behind, within⟩ := drop_skips rest
      by_cases present : delimiter ∈ text
      · obtain ⟨front, tail, rfl, absent⟩ := List.eq_append_cons_of_mem present
        obtain ⟨slice, shows, turn⟩ := splitLoop_found .before left shown behind absent
        have next := drop_passes behind
        rw [count_firstMark absent] at counted
        rw [turn]
        exact ih next (by omega)
      · rw [List.count_eq_zero_of_not_mem present] at counted
        obtain rfl : left = 1 := by omega
        obtain ⟨slice, shows, turn⟩ := splitLoop_missing .before 1 shown within
          (behind ▸ present)
        rw [turn, returns_splitLoop]
        rintro ⟨view, -, last, -⟩
        obtain ⟨others, same⟩ := List.head?_eq_some_iff.mp leading
        have first : find chars delimiter 0 = 0 := 
          find_first (show chars.drop 0 = [] ++ delimiter :: others from same) nofun
        change sizeT (find chars delimiter 0 + 0) = npos at last
        rw [first] at last
        contradiction

/-- A string that is not empty returns its slices exactly when the loop ends where the assertion asks
for it. -/
theorem returns_splitFull {post : List ImStr → Prop} (shown : this.view.Shows contents text)
    (nonempty : text ≠ []) :
    (this.splitFull delimiter s).Returns contents post ↔
      (this.splitLoop text delimiter s (1 + text.count delimiter) 0).Returns contents fun result =>
        result.2 = sizeT (npos + s.passes) ∧ post result.1 := by
  have some_size : this.view.size ≠ 0 := by
    rw [← shown.length]
    exact fun none => nonempty (List.length_eq_zero_iff.mp none)
  rw [splitFull, if_neg some_size, Program.returns_bind, shown.returns_chars, Program.returns_bind]
  refine Program.returns_congr fun result => ?_
  rw [← Split.passes]
  by_cases last : result.2 = sizeT (npos + s.passes)
  · rw [if_pos last, Program.returns_bind, returns_addRefCnt, Program.returns_pure]
    exact (and_iff_right last).symm
  · rw [if_neg last]
    exact iff_of_false id fun both => last both.1

/-- The string literal `"a;b;"`. -/
def literal : ImStr := { kind := .imStr, view := ⟨.literal (ascii "a;b;" ++ [0]), 0, 4⟩ }

theorem shows_literal : literal.view.Shows (fun _ => none) (ascii "a;b;") :=
  ⟨⟨_, rfl, rfl⟩, rfl, by decide⟩

/-- `Split::Drop` returns the longest parts of the text without the delimiter. -/
theorem splitFull_drop (delimiter : UInt8) (shown : this.view.Shows contents text)
    (nonempty : text ≠ []) :
    (this.splitFull delimiter .drop).Returns contents fun slices =>
      Slices contents slices (text.splitOn delimiter) ∧
        CutOut delimiter text (text.splitOn delimiter) := by
  rw [returns_splitFull shown nonempty]
  refine (returns_splitLoop_cut (CutOut delimiter) rfl (fun _ => .whole) ?_ shown
    (Nat.zero_le _) rfl (.inl rfl)).mono fun result ends => ?_
  · intro front tail pieces absent cut
    have kept : front ++ [delimiter].take Split.drop.keeps = front := List.append_nil front
    rw [kept]
    exact cut.cons absent
  · obtain ⟨last, pieces, shownSlices, cut⟩ := ends
    rw [List.drop_zero] at cut
    have same := cut.eq_splitOn
    subst same
    exact ⟨last, shownSlices, cut⟩

theorem splitFull_drop_literal :
    (literal.splitFull 59 .drop).Returns (fun _ => none) fun slices =>
      Slices (fun _ => none) slices ((ascii "a;b;").splitOn 59) ∧
        CutOut 59 (ascii "a;b;") ((ascii "a;b;").splitOn 59) :=
  splitFull_drop 59 shows_literal (by decide)

/-- A slice that shows nothing leaves nothing to join. -/
theorem Slices.flatten_singleton {slice : ImStr} {pieces : List Text}
    (shownSlices : Slices contents [slice] pieces) (shows : slice.view.Shows contents []) :
    pieces.flatten = [] := by
  cases shownSlices with
  | cons first none =>
      cases none
      rw [List.flatten_singleton, first.unique shows]

/-- Without a delimiter, the count of the only slice wraps around, so that it is empty. -/
theorem splitFull_after_absent (delimiter : UInt8) (shown : this.view.Shows contents text)
    (nonempty : text ≠ []) (absent : delimiter ∉ text) :
    ∃ slice : ImStr, slice.view.Shows contents [] ∧
      ∀ post, (this.splitFull delimiter .after).Returns contents post ↔ post [slice] := by
  have within : 0 + Split.after.skips ≤ text.length := Nat.zero_le _
  obtain ⟨slice, shows, turn⟩ := splitLoop_missing .after 0 shown within absent
  rw [if_pos ⟨rfl, rfl⟩] at shows
  refine ⟨slice, shows, fun post => ?_⟩
  rw [returns_splitFull shown nonempty, List.count_eq_zero_of_not_mem absent, turn]
  exact and_iff_right rfl

/-- `Split::After` returns the text cut behind each delimiter exactly when there is one. -/
theorem splitFull_after_iff (delimiter : UInt8) (shown : this.view.Shows contents text)
    (nonempty : text ≠ []) :
    ((this.splitFull delimiter .after).Returns contents fun slices =>
      ∃ pieces, Slices contents slices pieces ∧ CutAfter delimiter text pieces) ↔
        delimiter ∈ text := by
  constructor
  · intro returns
    by_contra absent
    obtain ⟨slice, shows, only⟩ := splitFull_after_absent delimiter shown nonempty absent
    rw [only] at returns
    obtain ⟨pieces, shownSlices, cut⟩ := returns
    exact nonempty (cut.joined.symm.trans (shownSlices.flatten_singleton shows))
  · intro present
    rw [returns_splitFull shown nonempty]
    refine (returns_splitLoop_cut (CutAfter delimiter) rfl (fun _ => .whole) ?_ shown
      (Nat.zero_le _) rfl (.inr (.inr present))).mono fun result ends => ?_
    · intro front tail pieces absent cut
      exact cut.cons absent
    · obtain ⟨last, pieces, shownSlices, cut⟩ := ends
      exact ⟨last, pieces, shownSlices, cut⟩

theorem splitFull_after_literal :
    (literal.splitFull 59 .after).Returns (fun _ => none) fun slices =>
      ∃ pieces, Slices (fun _ => none) slices pieces ∧ CutAfter 59 (ascii "a;b;") pieces :=
  (splitFull_after_iff 59 shows_literal (by decide)).mpr (by decide)

/-- Without a comma in it, the text is lost: the only slice is empty. -/
theorem splitFull_after_lost :
    (literal.splitFull 44 .after).Returns (fun _ => none) (fun slices =>
      Slices (fun _ => none) slices [[]]) ∧
      ¬ (literal.splitFull 44 .after).Returns (fun _ => none) fun slices =>
        ∃ pieces, Slices (fun _ => none) slices pieces ∧ CutAfter 44 (ascii "a;b;") pieces := by
  obtain ⟨slice, shows, only⟩ := splitFull_after_absent 44 shows_literal (by decide)
    (by decide)
  rw [only, only]
  refine ⟨.cons shows .nil, ?_⟩
  rintro ⟨pieces, shownSlices, cut⟩
  have joined := cut.joined
  rw [shownSlices.flatten_singleton shows] at joined
  contradiction

/-- `Split::Before` returns the text cut in front of each delimiter exactly when it does not begin with
one. -/
theorem splitFull_before_iff (delimiter : UInt8) (shown : this.view.Shows contents text)
    (nonempty : text ≠ []) :
    ((this.splitFull delimiter .before).Returns contents fun slices =>
      ∃ pieces, Slices contents slices pieces ∧ CutBefore delimiter text pieces) ↔
        text.head? ≠ some delimiter := by
  rw [returns_splitFull shown nonempty]
  obtain ⟨char, rest, rfl⟩ := List.exists_cons_of_ne_nil nonempty
  by_cases same : char = delimiter
  · subst same
    refine iff_of_false ?_ fun differs => differs rfl
    rw [List.count_cons_self]
    exact returns_splitLoop_surplus shown rfl rfl (by omega)
  · refine iff_of_true ?_ fun leading => same (Option.some.inj leading)
    rw [List.count_cons_of_ne same]
    refine (returns_splitLoop_before shown rfl rfl).mono fun result ends => ?_
    obtain ⟨last, pieces, shownSlices, cut⟩ := ends
    exact ⟨last, _, shownSlices, cut.prepend same⟩

theorem splitFull_before_literal :
    (literal.splitFull 59 .before).Returns (fun _ => none) fun slices =>
      ∃ pieces, Slices (fun _ => none) slices pieces ∧ CutBefore 59 (ascii "a;b;") pieces :=
  (splitFull_before_iff 59 shows_literal (by decide)).mpr (by decide)

/-- With the first character as the delimiter, an exception leaves the `noexcept` function. -/
theorem splitFull_before_terminated :
    literal.splitFull 97 .before = .abort ∧
      ¬ (literal.splitFull 97 .before).Returns (fun _ => none) fun slices =>
        ∃ pieces, Slices (fun _ => none) slices pieces ∧ CutBefore 97 (ascii "a;b;") pieces := by
  have run : literal.splitFull 97 .before = .abort := rfl
  rw [run]
  exact ⟨rfl, Program.gives_abort.mp⟩

end ImStr

end MartCommon.Mba
