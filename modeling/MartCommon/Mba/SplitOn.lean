import MartCommon.Mba.SplitFull

namespace MartCommon.Mba

open Library Library.RefCount

variable {contents : Block → Option Text} {front tail text : Text} {c : UInt8} {i : Nat}

theorem rfind_absent (absent : c ∉ text) : rfind text c = npos := by
  rw [rfind, findIdx_absent (mt List.mem_reverse.mp absent)]

theorem rfind_last (absent : c ∉ tail) : rfind (front ++ c :: tail) c = front.length := by
  have reversed : (front ++ c :: tail).reverse = tail.reverse ++ c :: front.reverse := by
    simp
  rw [rfind, reversed, findIdx_first (mt List.mem_reverse.mp absent), List.length_append,
    List.length_cons, List.length_reverse]
  show front.length + (tail.length + 1) - 1 - tail.length = front.length
  omega

namespace Split

variable (s : Split)

/-- The halves of a text at a position. The modes cut in front of the character there, behind it, or
on both of its sides. -/
def halves (text : Text) (i : Nat) : Text × Text :=
  match s with
  | .before => (text.take i, text.drop i)
  | .after => (text.take (i + 1), text.drop (i + 1))
  | .drop => (text.take i, text.drop (i + 1))

/-- The halves in a row, with the character between them that was dropped. -/
def join (c : UInt8) (halves : Text × Text) : Text :=
  match s with
  | .drop => halves.1 ++ c :: halves.2
  | _ => halves.1 ++ halves.2

theorem join_halves (found : text[i]? = some c) : s.join c (s.halves text i) = text := by
  cases s with
  | before => exact List.take_append_drop i text
  | after => exact List.take_append_drop (i + 1) text
  | drop =>
      obtain ⟨inside, rfl⟩ := List.getElem?_eq_some_iff.mp found
      change text.take i ++ text[i] :: text.drop (i + 1) = text
      rw [List.getElem_cons_drop, List.take_append_drop]

theorem halves_eq (text : Text) (i : Nat) :
    s.halves text i = (text.take (i + s.keeps), text.drop (i + s.passes)) := by
  cases s <;> rfl

end Split

namespace ImStr

variable {this : ImStr}

/-- Two strings show two texts. -/
def Halves (contents : Block → Option Text) (halves : Text × Text) (pair : ImStr × ImStr) : Prop :=
  pair.1.view.Shows contents halves.1 ∧ pair.2.view.Shows contents halves.2

/-- What a split on a character gives: the whole text where there is none, and else the halves at a
place of the character. -/
structure SplitOn (contents : Block → Option Text) (s : Split) (c : UInt8) (text : Text)
    (chosen : Nat → Prop) (pair : ImStr × ImStr) : Prop where
  absent : c ∉ text → Halves contents (text, []) pair
  present : c ∈ text → ∃ i, text[i]? = some c ∧ chosen i ∧ Halves contents (s.halves text i) pair ∧
    s.join c (s.halves text i) = text

theorem returns_copyHandle {handle : Handle} {post : Handle → Prop} :
    (AtomicRefCntBuffer.copyConstruct handle).Returns contents post ↔ post handle := by
  cases handle <;> exact .rfl

/-- An offset up to the end gives a part, and one beyond the end aborts. -/
theorem returns_substr {post : ImStr → Prop} (offset count : Nat)
    (shown : this.view.Shows contents text) :
    (this.substr offset count).Returns contents post ↔ offset ≤ text.length ∧
      ∀ view, this.view.substr offset count = some view → post ⟨.imStr, view, this.handle⟩ := by
  rw [substr]
  by_cases within : offset ≤ text.length
  · obtain ⟨part, taken, -⟩ := shown.substr offset count within
    rw [taken, Program.returns_bind, returns_copyHandle, Program.returns_pure]
    simp only [within, true_and, Option.some.injEq, forall_eq']
  · have beyond : this.view.substr offset count = none := by
      rw [View.substr, if_neg (shown.length ▸ within)]
    rw [beyond]
    exact iff_of_false Program.gives_abort.mp fun both => within both.1

theorem returns_makePair {first second : ImStr} {post : ImStr × ImStr → Prop} :
    (makePair first second).Returns contents post ↔
      post (⟨.imStr, first.view, first.handle⟩, ⟨.imStr, second.view, second.handle⟩) := .rfl

/-- Two parts that are cut at offsets inside the text. -/
theorem returns_parts (count offset : Nat) (shown : this.view.Shows contents text)
    (within : offset ≤ text.length) :
    (do
      let first ← this.substr 0 count
      let second ← this.substr offset npos
      makePair first second : Prog (ImStr × ImStr)).Returns contents
        (Halves contents (text.take count, text.drop offset)) := by
  rw [Program.returns_bind, returns_substr 0 count shown]
  refine ⟨Nat.zero_le _, fun view taken => ?_⟩
  rw [Program.returns_bind, returns_substr offset npos shown]
  refine ⟨within, fun view' taken' => ?_⟩
  rw [returns_makePair]
  obtain ⟨first, cut, shows⟩ := shown.substr 0 count (Nat.zero_le _)
  obtain ⟨second, cut', shows'⟩ := shown.substr offset npos within
  rw [taken] at cut
  rw [taken'] at cut'
  cases cut
  cases cut'
  constructor
  · exact shows
  · have short : (text.drop offset).length ≤ npos := by
      have bounded := shown.length ▸ shown.bounded
      rw [List.length_drop, npos]
      omega
    rwa [List.take_of_length_le short] at shows'

/-- The copy and an empty string. -/
theorem returns_whole (shown : this.view.Shows contents text) :
    this.whole.Returns contents (Halves contents (text, [])) := by
  rw [whole, copyConstruct, Program.returns_bind, Program.returns_bind, returns_copyHandle]
  exact ⟨shown, ⟨[], rfl, rfl⟩, rfl, Nat.two_pow_pos 64⟩

section At

variable (s : Split)

theorem returns_splitAtMode (shown : this.view.Shows contents text) (inside : i < text.length) :
    (this.splitAtMode i s).Returns contents (Halves contents (s.halves text i)) := by
  have bounded := shown.length ▸ shown.bounded
  have regular : i ≠ npos := by
    rw [npos]
    omega
  have passes := s.passes_le
  rw [splitAtMode, if_pos (.inl (shown.length ▸ inside)), if_neg regular, s.halves_eq]
  have second : i + (if s = .after ∨ s = .drop then 1 else 0) = i + s.passes := by
    cases s <;> rfl
  rw [second]
  exact returns_parts (i + s.keeps) (i + s.passes) shown (by omega)

/-- The overload without a mode cuts in front of the position. -/
theorem returns_splitAt (shown : this.view.Shows contents text) (inside : i < text.length) :
    (this.splitAt i).Returns contents (Halves contents (Split.before.halves text i)) :=
  returns_splitAtMode .before shown inside

theorem returns_splitAtMode_npos (shown : this.view.Shows contents text) :
    (this.splitAtMode npos s).Returns contents (Halves contents (text, [])) := by
  rw [splitAtMode, if_pos (.inr rfl), if_pos rfl]
  exact returns_whole shown

theorem returns_splitAt_npos (shown : this.view.Shows contents text) :
    (this.splitAt npos).Returns contents (Halves contents (text, [])) :=
  returns_splitAtMode_npos .before shown

/-- A split at the position of a search that finds a character where there is one. -/
theorem returns_splitOn {chosen : Nat → Prop} {pos : Nat} (shown : this.view.Shows contents text)
    (missing : c ∉ text → pos = npos)
    (finds : c ∈ text → text[pos]? = some c ∧ chosen pos) :
    (this.splitAtMode pos s).Returns contents (SplitOn contents s c text chosen) := by
  by_cases present : c ∈ text
  · obtain ⟨found, chosen⟩ := finds present
    obtain ⟨inside, -⟩ := List.getElem?_eq_some_iff.mp found
    apply (returns_splitAtMode s shown inside).mono
    intro pair halves
    exact ⟨absurd present, fun _ => ⟨pos, found, chosen, halves, s.join_halves found⟩⟩
  · rw [missing present]
    apply (returns_splitAtMode_npos s shown).mono
    intro pair halves
    exact ⟨fun _ => halves, fun here => absurd here present⟩

end At

theorem find_finds (member : c ∈ text) :
    text[find text c 0]? = some c ∧ c ∉ text.take (find text c 0) := by
  obtain ⟨front, tail, rfl, absent⟩ := List.eq_append_cons_of_mem member
  rw [find_first rfl absent, Nat.zero_add]
  constructor
  · simp
  · rwa [List.take_left]

theorem rfind_finds (member : c ∈ text) :
    text[rfind text c]? = some c ∧ c ∉ text.drop (rfind text c + 1) := by
  obtain ⟨front, tail, reversed, absent⟩ := List.eq_append_cons_of_mem (List.mem_reverse.mpr member)
  obtain rfl : text = tail.reverse ++ c :: front.reverse := by
    rw [← List.reverse_reverse text, reversed]
    simp
  rw [rfind_last (mt List.mem_reverse.mp absent)]
  constructor
  · simp
  · rw [← List.drop_drop, List.drop_left]
    exact mt List.mem_reverse.mp absent

/-- Every split in two keeps all characters of the text. The splits on a character cut at its first or
at its last place, and the splits at a position agree with them. No part begins beyond the end, which
would abort. -/
theorem splitOn_keeps (c : UInt8) (s : Split) (shown : this.view.Shows contents text) :
    (this.splitOnFirst c s).Returns contents
        (SplitOn contents s c text fun i => c ∉ text.take i) ∧
      (this.splitOnLast c s).Returns contents
        (SplitOn contents s c text fun i => c ∉ text.drop (i + 1)) ∧
      (∀ i, i < text.length →
        (this.splitAtMode i s).Returns contents (Halves contents (s.halves text i)) ∧
        (this.splitAt i).Returns contents (Halves contents (Split.before.halves text i))) ∧
      (this.splitAtMode npos s).Returns contents (Halves contents (text, [])) ∧
      (this.splitAt npos).Returns contents (Halves contents (text, [])) := by
  refine ⟨?_, ?_, fun i inside => ⟨returns_splitAtMode s shown inside, returns_splitAt shown inside⟩,
    returns_splitAtMode_npos s shown, returns_splitAt_npos shown⟩
  · rw [splitOnFirst, Program.returns_bind, shown.returns_chars]
    exact returns_splitOn s shown (fun absent => find_absent absent) find_finds
  · rw [splitOnLast, Program.returns_bind, shown.returns_chars]
    exact returns_splitOn s shown rfind_absent rfind_finds

theorem splitOn_keeps_literal :
    (literal.splitOnLast 59 .drop).Returns (fun _ => none)
      (SplitOn (fun _ => none) .drop 59 (ascii "a;b;") fun i => 59 ∉ (ascii "a;b;").drop (i + 1)) :=
  (splitOn_keeps 59 .drop shows_literal).2.1

end ImStr

end MartCommon.Mba
