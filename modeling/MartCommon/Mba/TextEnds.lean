import MartCommon.Mba.StringSpecs
import MartCommon.Mba.TextMeaning
import Mathlib.Data.List.TakeWhile

namespace MartCommon.Mba

open Library Library.RefCount

section Ends

variable {contents : Block → Option Text}

/-- What is stored stays what it is. -/
theorem View.stored_mono {earlier later : Block → Option Text} (kept : Extends earlier later)
    {view : View} {bytes : Text} (stored : view.stored earlier = some bytes) :
    view.stored later = some bytes := by
  unfold View.stored at stored ⊢
  cases storage : view.storage with
  | null => rwa [storage] at stored
  | literal own => rwa [storage] at stored
  | buffer block =>
      rw [storage] at stored
      exact kept block bytes stored

theorem View.Shows.mono {earlier later : Block → Option Text} (kept : Extends earlier later)
    {view : View} {text : Text} (shown : view.Shows earlier text) : view.Shows later text := by
  obtain ⟨bytes, stored, taken⟩ := shown.taken
  exact ⟨⟨bytes, View.stored_mono kept stored, taken⟩, shown.length, shown.bounded⟩

/-- An empty view shows no characters. -/
theorem View.shows_empty : View.Shows contents {} [] := ⟨⟨[], rfl, rfl⟩, rfl, Nat.two_pow_pos 64⟩

/-- In front of the first place of a character are the characters that differ from it. -/
theorem all_differ {text : Text} {char : UInt8} (absent : char ∉ text) :
    ∀ other ∈ text, decide (other ≠ char) = true := by
  intro other member
  rw [decide_eq_true_eq]
  exact fun same => absent (same ▸ member)

theorem takeWhile_first {front tail : Text} {char : UInt8} (absent : char ∉ front) :
    (front ++ char :: tail).takeWhile (· ≠ char) = front := by
  rw [List.takeWhile_append_of_pos (all_differ absent), List.takeWhile_cons_of_neg (by simp),
    List.append_nil]

theorem takeWhile_absent {text : Text} {char : UInt8} (absent : char ∉ text) :
    text.takeWhile (· ≠ char) = text :=
  List.takeWhile_eq_self_iff.mpr (all_differ absent)

theorem ends_incref {handle : Handle} {post : Unit → Prop} (ends : post ()) :
    (incref handle).Ends contents post := by
  cases handle with
  | none => exact ends
  | some block => exact ends

theorem ends_decref {handle : Handle} {post : Unit → Prop} (ends : post ()) :
    (decref handle).Ends contents post := by
  cases handle with
  | none => exact ends
  | some block =>
      intro old
      dsimp only
      split
      · exact ends
      · exact ends

theorem ends_copyConstruct {other : ImStr} {kind : Kind} {post : ImStr → Prop}
    (ends : post { other with kind := kind }) : (copyConstruct kind other).Ends contents post := by
  rw [copyConstruct, AtomicRefCntBuffer.copyConstruct, Program.ends_bind, Program.ends_bind]
  exact ends_incref ends

theorem ends_copyAssign {this other : ImStr} {post : ImStr → Prop}
    (ends : post { other with kind := this.kind }) : (copyAssign this other).Ends contents post := by
  rw [copyAssign, AtomicRefCntBuffer.copyAssign, Program.ends_bind, Program.ends_bind]
  apply ends_incref
  rw [Program.ends_bind]
  exact ends_decref ends

theorem ends_moveAssign {this other : ImStr} {post : ImStr × ImStr → Prop}
    (ends : post ({ other with kind := this.kind }, movedFrom other)) :
    (moveAssign this other).Ends contents post := by
  rw [moveAssign, AtomicRefCntBuffer.moveAssign, Program.ends_bind, Program.ends_bind]
  exact ends_decref ends

theorem ends_selfMoveAssign {this : ImStr} {post : ImStr → Prop} (ends : post this) :
    (selfMoveAssign this).Ends contents post := by
  rw [selfMoveAssign, AtomicRefCntBuffer.selfMoveAssign, Program.ends_bind]
  split
  · exact ends
  · trivial

theorem ends_allocate {chars : Text} {post : Block → Prop}
    (ends : ∀ block, contents block = some (chars ++ [0]) → chars.length < 2 ^ 31 → post block) :
    (AtomicRefCntBuffer.allocate chars).Ends contents post := by
  rw [AtomicRefCntBuffer.allocate]
  split
  · rename_i fits
    exact fun block stored => ends block stored fits
  · trivial

/-- A new buffer shows its characters. -/
theorem View.shows_buffer {block : Block} {chars : Text}
    (stored : contents block = some (chars ++ [0])) (fits : chars.length < 2 ^ 31) :
    View.Shows contents ⟨.buffer block, 0, chars.length⟩ chars :=
  ⟨⟨chars ++ [0], stored, List.take_left⟩, rfl, fits.trans (Nat.pow_lt_pow_right (by decide) (by decide))⟩

theorem ends_copyFrom {kind : Kind} {text : Option Text} {post : ImStr → Prop}
    (ends : ∀ object : ImStr, object.Is contents ⟨kind, text.getD []⟩ → post object) :
    (copyFrom { kind := kind } text).Ends contents post := by
  cases text with
  | none => exact ends _ ⟨rfl, ⟨[0], rfl, rfl⟩, rfl, Nat.two_pow_pos 64⟩
  | some chars =>
      rw [copyFrom, Program.ends_bind]
      apply ends_allocate
      intro block stored fits
      rw [Program.ends_bind]
      apply ends_moveAssign
      rw [Program.ends_bind]
      exact ends_decref (ends _ ⟨rfl, View.shows_buffer stored fits⟩)

theorem ends_fromView {kind : Kind} {text : Option Text} {post : ImStr → Prop}
    (ends : ∀ object : ImStr, object.Is contents ⟨kind, text.getD []⟩ → post object) :
    (fromView kind text).Ends contents post := by
  cases kind with
  | imStr => exact ends_copyFrom ends
  | imZstr =>
      rw [fromView]
      apply ends_copyFrom
      exact ends

theorem ends_concat {args : List Text} {post : ImStr → Prop}
    (ends : ∀ object : ImStr, object.Is contents ⟨.imZstr, args.flatten⟩ → post object) :
    (concat args).Ends contents post := by
  rw [concat, Program.ends_bind]
  apply ends_allocate
  intro block stored fits
  exact ends _ ⟨rfl, View.shows_buffer stored fits⟩

/-- The characters that are read are those of the text. -/
theorem View.Shows.ends_chars {view : View} {text : Text} {post : Text → Prop}
    (shown : view.Shows contents text) (ends : post text) : view.chars.Ends contents post :=
  (shown.returns_chars.mpr ends).ends

section Parts

variable {this : ImStr} {text : Text}

/-- An offset beyond the end aborts. -/
theorem ends_substr {offset count : Nat} {post : ImStr → Prop} (shown : this.view.Shows contents text)
    (ends : offset ≤ text.length →
      ∀ object : ImStr, object.Is contents ⟨.imStr, (text.drop offset).take count⟩ → post object) :
    (this.substr offset count).Ends contents post := by
  by_cases within : offset ≤ text.length
  · obtain ⟨part, taken, shows⟩ := shown.substr offset count within
    apply Program.Returns.ends
    rw [ImStr.returns_substr offset count shown]
    refine ⟨within, fun view found => ?_⟩
    obtain rfl : part = view := Option.some.inj (taken.symm.trans found)
    exact ends within _ ⟨rfl, shows⟩
  · have beyond : this.view.substr offset count = none := by
      rw [View.substr, if_neg (shown.length ▸ within)]
    rw [ImStr.substr, beyond]
    trivial

/-- The part moves the handle, and the view stays. -/
theorem ends_substrMove {offset count : Nat} {post : ImStr × ImStr → Prop}
    (shown : this.view.Shows contents text)
    (ends : offset ≤ text.length → ∀ object : ImStr,
      object.Is contents ⟨.imStr, (text.drop offset).take count⟩ →
        post (object, { this with handle := none })) :
    (this.substrMove offset count).Ends contents post := by
  by_cases within : offset ≤ text.length
  · obtain ⟨part, taken, shows⟩ := shown.substr offset count within
    rw [ImStr.substrMove, taken]
    exact ends within _ ⟨rfl, shows⟩
  · have beyond : this.view.substr offset count = none := by
      rw [View.substr, if_neg (shown.length ▸ within)]
    rw [ImStr.substrMove, beyond]
    trivial

/-- A range inside the view shows the characters between its ends. -/
theorem ends_substrRange {range : View} {post : ImStr → Prop} (shown : this.view.Shows contents text)
    (ends : ∀ offset, range.offset = this.view.offset + offset → offset + range.size ≤ text.length →
      ∀ object : ImStr, object.Is contents ⟨.imStr, (text.drop offset).take range.size⟩ → post object) :
    (this.substrRange range).Ends contents post := by
  rw [ImStr.substrRange]
  split
  · rename_i inside
    obtain ⟨storage, front, back⟩ := inside
    have length := shown.length
    have bounded := shown.bounded
    obtain ⟨bytes, stored, taken⟩ := shown.taken
    obtain ⟨offset, starts⟩ := Nat.exists_eq_add_of_le front
    have within : offset + range.size ≤ text.length := by omega
    rw [AtomicRefCntBuffer.copyConstruct, Program.ends_bind, Program.ends_bind]
    apply ends_incref
    refine ends offset starts within _ ⟨rfl, ⟨bytes, ?_, ?_⟩, ?_, ?_⟩
    · rwa [View.stored, storage]
    · rw [← taken, List.drop_take, List.take_take, List.drop_drop, starts, min_eq_left (by omega)]
    · rw [List.length_take, List.length_drop]
      exact min_eq_left (by omega)
    · show range.size < 2 ^ 64
      omega
  · trivial

/-- Each part of a string shows the characters between its ends. -/
theorem ends_substrIterators {start end_ : Nat} {post : ImStr → Prop}
    (shown : this.view.Shows contents text)
    (ends : start ≤ end_ → end_ ≤ text.length → ∀ object : ImStr,
      object.Is contents ⟨.imStr, (text.drop start).take (end_ - start)⟩ → post object) :
    (this.substrIterators start end_).Ends contents post := by
  rw [ImStr.substrIterators]
  split
  · rename_i ordered
    apply ends_substrRange shown
    intro offset starts within object is
    obtain rfl : start = offset := Nat.add_left_cancel starts
    exact ends ordered (by dsimp only at within; omega) object is
  · trivial

/-- Up to a character there are the characters that differ from it. -/
theorem take_find (chars : Text) (sentinel : UInt8) (offset : Nat) (fits : chars.length ≤ npos) :
    (chars.drop offset).take (find chars sentinel offset - offset) =
      (chars.drop offset).takeWhile (· ≠ sentinel) := by
  by_cases present : sentinel ∈ chars.drop offset
  · obtain ⟨front, tail, rest, absent⟩ := List.eq_append_cons_of_mem present
    rw [find_first rest absent, Nat.add_sub_cancel_left, rest, List.take_left, takeWhile_first absent]
  · rw [find_absent present, takeWhile_absent present]
    apply List.take_of_length_le
    rw [List.length_drop]
    omega

/-- The literal ends in front of its first zero. -/
theorem ends_fromLiteral {kind : Kind} {array : Text} {post : ImStr → Prop}
    (fits : array.length < 2 ^ 64)
    (ends : ∀ object : ImStr, object.Is contents ⟨kind, array.takeWhile (· ≠ 0)⟩ → post object) :
    (fromLiteral kind array).Ends contents post := by
  rw [fromLiteral, View.ofArray, Program.ends_bind]
  by_cases present : 0 ∈ array
  · obtain ⟨front, tail, rfl, absent⟩ := List.eq_append_cons_of_mem present
    rw [findIdx_first absent]
    rw [List.length_append] at fits
    apply ends
    rw [takeWhile_first absent]
    exact ⟨rfl, ⟨_, rfl, List.take_left⟩, rfl, (Nat.le_add_right _ _).trans_lt fits⟩
  · rw [findIdx_absent present]
    trivial

theorem ends_trustMe {kind : Kind} {array : Text} {size : Nat} {post : ImStr → Prop}
    (fits : array.length < 2 ^ 64)
    (ends : size ≤ array.length →
      ∀ object : ImStr, object.Is contents ⟨kind, array.take size⟩ → post object) :
    (trustMe kind array size).Ends contents post := by
  rw [trustMe]
  split
  · rename_i within
    apply ends within
    exact ⟨rfl, ⟨array, rfl, rfl⟩, List.length_take_of_le within, within.trans_lt fits⟩
  · trivial

theorem Part.kind_imStr {object : ImStr} (part : Part this object) : object.kind = .imStr := by
  cases part with
  | empty => rfl
  | slice view storage shorter inside => rfl

/-- The two strings of a pair are parts. -/
theorem ends_pair {created : Prog (ImStr × ImStr)} {property : ImStr × ImStr → Prop}
    (returns : created.Returns contents property)
    (sound : created.Sound contents (fun pair _ => Part this pair.1 ∧ Part this pair.2) none
      this.handle.tokens) :
    created.Ends contents fun pair =>
      property pair ∧ pair.1.kind = .imStr ∧ pair.2.kind = .imStr := by
  apply (returns.ends.and sound.ends).mono
  rintro pair ⟨holds, -, first, second⟩
  exact ⟨holds, first.kind_imStr, second.kind_imStr⟩

/-- A split at a position aborts unless there is a character or the position is `npos`. -/
theorem ends_splitAtMode (i : Nat) (s : Split) {value : StrValue}
    (shown : this.view.Shows contents value.text) :
    (this.splitAtMode i s).Ends contents fun pair => ∃ halves : Text × Text,
      value.SplitAt i s (value.gives [halves.1, halves.2]) ∧
      ImStr.Halves contents halves pair ∧ pair.1.kind = .imStr ∧ pair.2.kind = .imStr := by
  have parts : (this.splitAtMode i s).Sound contents
      (fun pair _ => Part this pair.1 ∧ Part this pair.2) none this.handle.tokens :=
    sound_splitAtMode (le_refl _) fun first second front back => ⟨front, back⟩
  by_cases inside : i < value.text.length
  · apply (ends_pair (ImStr.returns_splitAtMode s shown inside) parts).mono
    intro pair halves
    exact ⟨_, .inl ⟨inside, rfl⟩, halves⟩
  · by_cases last : i = npos
    · subst last
      apply (ends_pair (ImStr.returns_splitAtMode_npos s shown) parts).mono
      intro pair halves
      exact ⟨_, .inr ⟨rfl, rfl⟩, halves⟩
    · rw [ImStr.splitAtMode, if_neg (by rw [← shown.length]; exact not_or.mpr ⟨inside, last⟩)]
      trivial

/-- A split on a character gives the halves that it chooses. -/
theorem ends_splitOn {created : Prog (ImStr × ImStr)} {c : UInt8} {s : Split} {chosen : Nat → Prop}
    {value : StrValue} (returns : created.Returns contents (ImStr.SplitOn contents s c value.text chosen))
    (sound : created.Sound contents (fun pair _ => Part this pair.1 ∧ Part this pair.2) none
      this.handle.tokens) :
    created.Ends contents fun pair => ∃ halves : Text × Text,
      value.SplitOn c s chosen (value.gives [halves.1, halves.2]) ∧
      ImStr.Halves contents halves pair ∧ pair.1.kind = .imStr ∧ pair.2.kind = .imStr := by
  apply (ends_pair returns sound).mono
  rintro pair ⟨split, kinds⟩
  by_cases present : c ∈ value.text
  · obtain ⟨i, found, here, halves, -⟩ := split.present present
    exact ⟨_, .inr ⟨i, found, here, rfl⟩, halves, kinds⟩
  · exact ⟨(value.text, []), .inl ⟨present, rfl⟩, split.absent present, kinds⟩

/-- The loop of `split_full` reads no memory. It aborts, or it is done at once. -/
theorem splitLoop_decided {chars : Text} {delimiter : UInt8} {s : Split} {left startPos : Nat} :
    this.splitLoop chars delimiter s left startPos = .abort ∨
      ∃ result, this.splitLoop chars delimiter s left startPos = .done result := by
  induction left generalizing startPos with
  | zero => exact .inr ⟨_, rfl⟩
  | succ left ih =>
      rw [ImStr.splitLoop]
      simp only
      cases this.view.substr startPos _ with
      | none => exact .inl rfl
      | some view =>
          change (this.splitLoop chars delimiter s left _).bind _ = _ ∨
            ∃ result, (this.splitLoop chars delimiter s left _).bind _ = _
          rcases ih with aborted | ⟨others, done⟩
          · rw [aborted]
            exact .inl rfl
          · rw [done]
            exact .inr ⟨_, rfl⟩

/-- With a delimiter in front and at the front, there is never a result. -/
theorem ends_splitFull_leading {delimiter : UInt8} {rest : Text} {post : List ImStr → Prop}
    (shown : this.view.Shows contents (delimiter :: rest)) :
    (this.splitFull delimiter .before).Ends contents post := by
  rw [ImStr.splitFull]
  split
  · rename_i none
    have length := shown.length
    rw [none] at length
    contradiction
  · rw [Program.ends_bind]
    apply shown.ends_chars
    rw [Program.ends_bind, List.count_cons_self]
    rcases splitLoop_decided with aborted | ⟨⟨slices, last⟩, done⟩
    · rw [aborted]
      trivial
    · have surplus : ¬ (this.splitLoop (delimiter :: rest) delimiter .before
          (1 + (rest.count delimiter + 1)) 0).Returns contents fun result => result.2 = npos ∧ True :=
        ImStr.returns_splitLoop_surplus shown rfl List.drop_zero (by omega)
      rw [done] at surplus ⊢
      have other : last ≠ npos := fun same => surplus ⟨same, trivial⟩
      show Program.Ends contents post (if last = _ then _ else _)
      rw [if_neg]
      · trivial
      · exact other

/-- Cuts that take the text apart from the front give the pieces. -/
theorem ends_splitFull_cut {delimiter : UInt8} {s : Split} (Cut : Text → List Text → Prop)
    (passes : s.passes = 1) (whole : ∀ text, delimiter ∉ text → Cut text [text])
    (cons : ∀ front tail pieces, delimiter ∉ front → Cut tail pieces →
      Cut (front ++ delimiter :: tail) ((front ++ [delimiter].take s.keeps) :: pieces))
    (shown : this.view.Shows contents text) (nonempty : text ≠ [])
    (starts : s.keeps = 0 ∨ 0 ≠ 0 ∨ delimiter ∈ text) :
    (this.splitFull delimiter s).Ends contents fun objects =>
      ∃ pieces, Cut text pieces ∧ ImStr.Slices contents objects pieces := by
  apply Program.Returns.ends
  rw [ImStr.returns_splitFull shown nonempty]
  apply (ImStr.returns_splitLoop_cut Cut passes whole cons shown (Nat.zero_le _) rfl starts).mono
  rintro result ⟨last, pieces, slices, cut⟩
  rw [List.drop_zero] at cut
  exact ⟨last, pieces, cut, slices⟩

/-- Where `split_full` ends, its slices show the pieces of the text. -/
theorem ends_splitFull (delimiter : UInt8) (s : Split) (shown : this.view.Shows contents text) :
    (this.splitFull delimiter s).Ends contents fun objects => ∃ pieces,
      s.Pieces delimiter text pieces ∧ ImStr.Slices contents objects pieces := by
  by_cases empty : text = []
  · subst empty
    have none : this.view.size = 0 := shown.length.symm
    rw [ImStr.splitFull, if_pos none]
    exact ⟨[], by simp [Split.Pieces], .nil⟩
  · simp only [Split.Pieces, if_neg empty]
    cases s with
    | drop =>
        apply ends_splitFull_cut (CutOut delimiter) rfl (fun _ => .whole) _ shown empty (.inl rfl)
        intro front tail pieces absent cut
        have kept : front ++ [delimiter].take Split.drop.keeps = front := List.append_nil front
        rw [kept]
        exact cut.cons absent
    | before =>
        obtain ⟨char, rest, rfl⟩ := List.exists_cons_of_ne_nil empty
        by_cases leading : char = delimiter
        · subst leading
          exact ends_splitFull_leading shown
        · apply Program.Returns.ends
          rw [ImStr.returns_splitFull shown empty, List.count_cons_of_ne leading]
          apply (ImStr.returns_splitLoop_before shown rfl rfl).mono
          rintro result ⟨last, pieces, slices, cut⟩
          exact ⟨last, _, ⟨fun same => leading (Option.some.inj same), cut.prepend leading⟩, slices⟩
    | after =>
        by_cases present : delimiter ∈ text
        · have ends : (this.splitFull delimiter .after).Ends contents fun objects =>
              ∃ pieces, CutAfter delimiter text pieces ∧ ImStr.Slices contents objects pieces := by
            apply ends_splitFull_cut (CutAfter delimiter) rfl (fun _ => .whole) _ shown empty
              (.inr (.inr present))
            exact fun front tail pieces absent cut => cut.cons absent
          apply ends.mono
          rintro objects ⟨pieces, cut, slices⟩
          refine ⟨pieces, ?_, slices⟩
          show if delimiter ∈ text then _ else _
          rwa [if_pos present]
        · obtain ⟨slice, shows, only⟩ := ImStr.splitFull_after_absent delimiter shown empty present
          apply Program.Returns.ends
          rw [only]
          refine ⟨[[]], ?_, .cons shows .nil⟩
          show if delimiter ∈ text then _ else _
          rw [if_neg present]

/-- The slices are parts of the string. -/
theorem ends_slices {created : Prog (List ImStr)} {property : List ImStr → Prop}
    (ends : created.Ends contents property)
    (sound : created.Sound contents (fun objects _ => ∀ object ∈ objects, Part this object) none
      this.handle.tokens) :
    created.Ends contents fun objects =>
      property objects ∧ ∀ object ∈ objects, object.kind = .imStr := by
  apply (ends.and sound.ends).mono
  rintro objects ⟨holds, -, parts⟩
  exact ⟨holds, fun object member => (parts object member).kind_imStr⟩

/-- A null view shows no characters, so that its copy does not either. -/
theorem ends_unshare {post : ImStr → Prop} (shown : this.view.Shows contents text)
    (ends : ∀ object : ImStr, object.Is contents ⟨.imZstr, text⟩ → post object) :
    this.unshare.Ends contents post := by
  rw [ImStr.unshare, Program.ends_bind]
  apply shown.ends_chars
  apply ends_fromView
  by_cases null : this.view.storage = .null
  · obtain ⟨bytes, stored, taken⟩ := shown.taken
    rw [View.stored, null] at stored
    cases stored
    rw [List.drop_nil, List.take_nil] at taken
    rw [if_pos null, Option.getD_none, taken]
    exact ends
  · rw [if_neg null]
    exact ends

/-- The byte behind the view decides. -/
theorem ends_isZeroTerminated {post : Bool → Prop} (ends : ∀ terminated, post terminated) :
    this.isZeroTerminated.Ends contents post := by
  have sound : this.isZeroTerminated.Sound contents (fun _ _ => True) none 0 :=
    sound_isZeroTerminated fun _ _ => trivial
  exact sound.ends.mono fun terminated _ => ends terminated

theorem ends_createZstr {post : ImStr → Prop} (shown : this.view.Shows contents text)
    (ends : ∀ object : ImStr, object.Is contents ⟨.imZstr, text⟩ → post object) :
    this.createZstr.Ends contents post := by
  rw [ImStr.createZstr, Program.ends_bind]
  apply ends_isZeroTerminated
  intro terminated
  split
  · apply ends_copyConstruct
    apply ends
    exact ⟨rfl, shown⟩
  · exact ends_unshare shown ends

/-- Only a terminated string is emptied. -/
theorem ends_createZstrMove {post : ImStr × ImStr → Prop} (shown : this.view.Shows contents text)
    (ends : ∀ object : ImStr, object.Is contents ⟨.imZstr, text⟩ →
      ∀ left, left = this ∨ left = movedFrom this → post (object, left)) :
    this.createZstrMove.Ends contents post := by
  rw [ImStr.createZstrMove, Program.ends_bind]
  apply ends_isZeroTerminated
  intro terminated
  split
  · refine ends _ ?_ _ (.inr rfl)
    exact ⟨rfl, shown⟩
  · rw [Program.ends_bind]
    apply ends_unshare shown
    exact fun object is => ends object is this (.inl rfl)

end Parts

end Ends

end MartCommon.Mba
