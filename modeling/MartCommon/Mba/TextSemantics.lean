import MartCommon.Mba.Dangling
import MartCommon.Mba.TextEnds

namespace MartCommon.Mba

open Library Library.RefCount

variable {Slot Thread : Type} [DecidableEq Slot] [DecidableEq Thread]

section Outcomes

variable {contents : Block → Option Text} {this : ImStr} {value : StrValue}
  {meaning : Outcome StrValue → Prop}

theorem ends_creates {created : Prog ImStr}
    (ends : created.Ends contents fun object =>
      ∃ made, object.Is contents made ∧ meaning { created := [made] }) :
    (creates created).Ends contents (Ended contents meaning) := by
  rw [creates, Program.ends_bind]
  apply ends.mono
  rintro object ⟨made, is, means⟩
  exact ⟨_, means, .nil, .cons is .nil⟩

theorem ends_creates1 {created : Prog ImStr} (is : this.Is contents value)
    (ends : created.Ends contents fun object => ∃ made, object.Is contents made ∧
      meaning { kept := [some value], created := [made] }) :
    (creates1 this created).Ends contents (Ended contents meaning) := by
  rw [creates1, Program.ends_bind]
  apply ends.mono
  rintro object ⟨made, also, means⟩
  exact ⟨_, means, .cons (.some is) .nil, .cons also .nil⟩

theorem ends_createsMoved {created : Prog (ImStr × ImStr)}
    (ends : created.Ends contents fun objects => ∃ made left, objects.1.Is contents made ∧
      objects.2.Is contents left ∧ meaning { kept := [some left], created := [made] }) :
    (createsMoved created).Ends contents (Ended contents meaning) := by
  rw [createsMoved, Program.ends_bind]
  apply ends.mono
  rintro objects ⟨made, left, is, also, means⟩
  exact ⟨_, means, .cons (.some also) .nil, .cons is .nil⟩

theorem ends_createsPair {created : Prog (ImStr × ImStr)} (is : this.Is contents value)
    (ends : created.Ends contents fun objects => ∃ halves : Text × Text,
      meaning (value.gives [halves.1, halves.2]) ∧ ImStr.Halves contents halves objects ∧
      objects.1.kind = .imStr ∧ objects.2.kind = .imStr) :
    (createsPair this created).Ends contents (Ended contents meaning) := by
  rw [createsPair, Program.ends_bind]
  apply ends.mono
  rintro objects ⟨halves, means, shown, kind, kind'⟩
  exact ⟨_, means, .cons (.some is) .nil, .cons ⟨kind, shown.1⟩ (.cons ⟨kind', shown.2⟩ .nil)⟩

theorem ends_createsAll {created : Prog (List ImStr)} (is : this.Is contents value)
    (ends : created.Ends contents fun objects => ∃ pieces, meaning (value.gives pieces) ∧
      ImStr.Slices contents objects pieces ∧ ∀ object ∈ objects, object.kind = .imStr) :
    (createsAll this created).Ends contents (Ended contents meaning) := by
  rw [createsAll, Program.ends_bind]
  apply ends.mono
  rintro objects ⟨pieces, means, shown, kinds⟩
  refine ⟨_, means, .cons (.some is) .nil, ?_⟩
  show List.Forall₂ (ImStr.Is contents) objects (pieces.map fun part => ⟨.imStr, part⟩)
  rw [List.forall₂_map_right_iff]
  have both := (List.forall₂_and_left _ _).mpr ⟨kinds, shown⟩
  exact both.imp fun object piece is => ⟨is.1, is.2⟩

end Outcomes

/-- An array of characters is an object in memory. -/
def Operation.storable : Operation Slot → Bool
  | .fromLiteral _ array => array.length < 2 ^ 64
  | .trustMe _ array _ => array.length < 2 ^ 64
  | _ => true

/-- The strings whose operations keep the views. -/
abbrev textStrings (Slot : Type) [DecidableEq Slot] : Interface Text ImStr (Operation Slot) Slot :=
  (strings Slot).restrict fun operation objects =>
    KeepsView operation objects ∧ operation.storable = true

theorem lawful_textStrings : Lawful (textStrings Slot) fun _ => Anchored :=
  lawful_of_origins (fun _ anchored => anchored) fun met anchored origin =>
    origin.anchored met.1 anchored

section Body

variable {contents : Block → Option Text} {objects : List ImStr} {values : List StrValue}
  {program : Prog (Outcome ImStr)}

/-- One object depicts one value. -/
theorem ofOne_of_is {this : ImStr} (alike : List.Forall₂ (ImStr.Is contents) [this] values) :
    ∃ value, values = [value] ∧ this.Is contents value := by
  rw [List.forall₂_cons_left_iff] at alike
  obtain ⟨value, rest, is, none, rfl⟩ := alike
  rw [List.forall₂_nil_left_iff.mp none]
  exact ⟨value, rfl, is⟩

theorem ofTwo_of_is {this other : ImStr}
    (alike : List.Forall₂ (ImStr.Is contents) [this, other] values) :
    ∃ value value', values = [value, value'] ∧ this.Is contents value ∧ other.Is contents value' := by
  rw [List.forall₂_cons_left_iff] at alike
  obtain ⟨value, rest, is, others, rfl⟩ := alike
  obtain ⟨value', rfl, is'⟩ := ofOne_of_is others
  exact ⟨value, value', rfl, is, is'⟩

/-- An operation on one string ends with what it means for the value of that string. -/
theorem ends_onOne {body : ImStr → Option (Prog (Outcome ImStr))}
    {means : StrValue → Outcome StrValue → Prop} (found : onOne objects body = some program)
    (alike : List.Forall₂ (ImStr.Is contents) objects values)
    (ends : ∀ {this value program}, body this = some program → this.Is contents value →
      program.Ends contents (Ended contents (means value))) :
    program.Ends contents (Ended contents fun result => OfOne values fun this => means this result) := by
  obtain ⟨this, rfl, found⟩ := onOne_eq_some.mp found
  obtain ⟨value, rfl, is⟩ := ofOne_of_is alike
  apply (ends found is).mono
  rintro outcome ⟨result, means, shown⟩
  exact ⟨result, ⟨value, rfl, means⟩, shown⟩

section OnOne

variable {means : StrValue → Outcome StrValue → Prop}
  (alike : List.Forall₂ (ImStr.Is contents) objects values)

include alike

/-- The rules for the functions that make strings from another one. -/
theorem ends_onOne_creates1 {created : ImStr → Prog ImStr}
    (found : onOne objects (fun this => some (creates1 this (created this))) = some program)
    (ends : ∀ {this value}, this.Is contents value → (created this).Ends contents fun object =>
      ∃ made, object.Is contents made ∧ means value { kept := [some value], created := [made] }) :
    program.Ends contents (Ended contents fun result => OfOne values fun this => means this result) := by
  apply ends_onOne found alike
  intro this value program body is
  cases body
  exact ends_creates1 is (ends is)

theorem ends_onOne_createsMoved {created : ImStr → Prog (ImStr × ImStr)}
    (found : onOne objects (fun this => some (createsMoved (created this))) = some program)
    (ends : ∀ {this value}, this.Is contents value → (created this).Ends contents fun objects =>
      ∃ made left, objects.1.Is contents made ∧ objects.2.Is contents left ∧
        means value { kept := [some left], created := [made] }) :
    program.Ends contents (Ended contents fun result => OfOne values fun this => means this result) := by
  apply ends_onOne found alike
  intro this value program body is
  cases body
  exact ends_createsMoved (ends is)

theorem ends_onOne_createsPair {created : ImStr → Prog (ImStr × ImStr)}
    (found : onOne objects (fun this => some (createsPair this (created this))) = some program)
    (ends : ∀ {this value}, this.Is contents value → (created this).Ends contents fun objects =>
      ∃ halves : Text × Text, means value (value.gives [halves.1, halves.2]) ∧
        ImStr.Halves contents halves objects ∧ objects.1.kind = .imStr ∧ objects.2.kind = .imStr) :
    program.Ends contents (Ended contents fun result => OfOne values fun this => means this result) := by
  apply ends_onOne found alike
  intro this value program body is
  cases body
  exact ends_createsPair is (ends is)

end OnOne

theorem ended_both {first second : ImStr} {value value' : StrValue}
    {meaning : Outcome StrValue → Prop} (is : first.Is contents value) (is' : second.Is contents value')
    (means : meaning { kept := [some value, some value'] }) :
    (pure { kept := [some first, some second] } : Prog (Outcome ImStr)).Ends contents
      (Ended contents meaning) :=
  ⟨_, means, .cons (.some is) (.cons (.some is') .nil), .nil⟩

theorem ended_same {this : ImStr} {value : StrValue} {meaning : Outcome StrValue → Prop}
    (is : this.Is contents value) (means : meaning { kept := [some value] }) :
    (pure { kept := [some this] } : Prog (Outcome ImStr)).Ends contents (Ended contents meaning) :=
  ⟨_, means, .cons (.some is) .nil, .nil⟩

theorem ends_body_copyAssign {this other : Slot}
    (body : (Operation.copyAssign this other).body objects = some program)
    (alike : List.Forall₂ (ImStr.Is contents) objects values) :
    program.Ends contents (Ended contents ((Operation.copyAssign this other).Meaning values)) := by
  simp only [Operation.body] at body
  split at body
  · rename_i same
    obtain ⟨this, rfl, body⟩ := onOne_eq_some.mp body
    cases body
    obtain ⟨value, rfl, is⟩ := ofOne_of_is alike
    rw [Program.ends_bind]
    apply ends_copyAssign
    apply ended_same is
    rw [Operation.Meaning, if_pos same]
    exact ⟨value, rfl, rfl⟩
  · rename_i apart
    obtain ⟨this, other, rfl, body⟩ := onTwo_eq_some.mp body
    obtain ⟨-, rfl⟩ := ite_some.mp body
    obtain ⟨value, value', rfl, is, is'⟩ := ofTwo_of_is alike
    rw [Program.ends_bind]
    apply ends_copyAssign
    have assigned : ImStr.Is contents { other with kind := this.kind }
        { value with text := value'.text } := ⟨is.kind, is'.shown⟩
    apply ended_both assigned is'
    rw [Operation.Meaning, if_neg apart]
    exact ⟨value, value', rfl, rfl⟩

/-- A string that is moved to itself keeps its value. -/
theorem ends_body_moveAssign {this other : Slot}
    (body : (Operation.moveAssign this other).body objects = some program)
    (alike : List.Forall₂ (ImStr.Is contents) objects values) :
    program.Ends contents (Ended contents ((Operation.moveAssign this other).Meaning values)) := by
  simp only [Operation.body] at body
  split at body
  · rename_i same
    obtain ⟨this, rfl, body⟩ := onOne_eq_some.mp body
    cases body
    obtain ⟨value, rfl, is⟩ := ofOne_of_is alike
    rw [Program.ends_bind]
    apply ends_selfMoveAssign
    apply ended_same is
    rw [Operation.Meaning, if_pos same]
    exact ⟨value, rfl, rfl⟩
  · rename_i apart
    obtain ⟨this, other, rfl, body⟩ := onTwo_eq_some.mp body
    obtain ⟨-, rfl⟩ := ite_some.mp body
    obtain ⟨value, value', rfl, is, is'⟩ := ofTwo_of_is alike
    rw [Program.ends_bind]
    apply ends_moveAssign
    have assigned : ImStr.Is contents { other with kind := this.kind }
        { value with text := value'.text } := ⟨is.kind, is'.shown⟩
    have emptied : ImStr.Is contents (movedFrom other) { value' with text := [] } :=
      ⟨is'.kind, View.shows_empty⟩
    apply ended_both assigned emptied
    rw [Operation.Meaning, if_neg apart]
    exact ⟨value, value', rfl, rfl⟩

theorem ends_body_swap {l r : Slot} (body : (Operation.swap l r).body objects = some program)
    (alike : List.Forall₂ (ImStr.Is contents) objects values) :
    program.Ends contents (Ended contents ((Operation.swap l r).Meaning values)) := by
  simp only [Operation.body] at body
  split at body
  · rename_i same
    obtain ⟨l, rfl, body⟩ := onOne_eq_some.mp body
    cases body
    obtain ⟨value, rfl, is⟩ := ofOne_of_is alike
    apply ended_same is
    rw [Operation.Meaning, if_pos same]
    exact ⟨value, rfl, rfl⟩
  · rename_i apart
    obtain ⟨l, r, rfl, body⟩ := onTwo_eq_some.mp body
    obtain ⟨-, rfl⟩ := ite_some.mp body
    obtain ⟨value, value', rfl, is, is'⟩ := ofTwo_of_is alike
    have left : ImStr.Is contents (swap l r).1 { value with text := value'.text } :=
      ⟨is.kind, is'.shown⟩
    have right : ImStr.Is contents (swap l r).2 { value' with text := value.text } :=
      ⟨is'.kind, is.shown⟩
    apply ended_both left right
    rw [Operation.Meaning, if_neg apart]
    exact ⟨value, value', rfl, rfl⟩

/-- The characters up to the sentinel are those that `find` counts. -/
theorem ends_substrSentinel {this : ImStr} {value : StrValue} {offset : Nat} {sentinel : UInt8}
    (is : this.Is contents value) :
    (this.substrSentinel offset sentinel).Ends contents fun object => ∃ made, object.Is contents made ∧
      offset ≤ value.text.length ∧ { kept := [some value], created := [made] } =
        value.gives [(value.text.drop offset).takeWhile (· ≠ sentinel)] := by
  have fits : value.text.length ≤ npos := by
    have bounded := is.shown.length ▸ is.shown.bounded
    rw [npos]
    omega
  rw [ImStr.substrSentinel, Program.ends_bind]
  apply is.shown.ends_chars
  apply ends_substr is.shown
  rw [take_find value.text sentinel offset fits]
  exact fun within object part => ⟨_, part, within, rfl⟩

theorem ends_splitOnFirst {this : ImStr} {value : StrValue} {c : UInt8} {s : Split}
    (is : this.Is contents value) :
    (this.splitOnFirst c s).Ends contents fun pair => ∃ halves : Text × Text,
      value.SplitOn c s (fun i => c ∉ value.text.take i) (value.gives [halves.1, halves.2]) ∧
        ImStr.Halves contents halves pair ∧ pair.1.kind = .imStr ∧ pair.2.kind = .imStr := by
  have returns : (this.splitOnFirst c s).Returns contents
      (ImStr.SplitOn contents s c value.text fun i => c ∉ value.text.take i) := by
    rw [ImStr.splitOnFirst, Program.returns_bind, is.shown.returns_chars]
    exact ImStr.returns_splitOn s is.shown (fun absent => find_absent absent) ImStr.find_finds
  exact ends_splitOn returns
    (sound_splitOnFirst (le_refl _) fun first second front back => ⟨front, back⟩)

theorem ends_splitOnLast {this : ImStr} {value : StrValue} {c : UInt8} {s : Split}
    (is : this.Is contents value) :
    (this.splitOnLast c s).Ends contents fun pair => ∃ halves : Text × Text,
      value.SplitOn c s (fun i => c ∉ value.text.drop (i + 1)) (value.gives [halves.1, halves.2]) ∧
        ImStr.Halves contents halves pair ∧ pair.1.kind = .imStr ∧ pair.2.kind = .imStr := by
  have returns : (this.splitOnLast c s).Returns contents
      (ImStr.SplitOn contents s c value.text fun i => c ∉ value.text.drop (i + 1)) := by
    rw [ImStr.splitOnLast, Program.returns_bind, is.shown.returns_chars]
    exact ImStr.returns_splitOn s is.shown rfind_absent ImStr.rfind_finds
  exact ends_splitOn returns
    (sound_splitOnLast (le_refl _) fun first second front back => ⟨front, back⟩)

variable {operation : Operation Slot}

/-- An operation ends with what it means for the values of its strings. -/
theorem ends_body (body : operation.body objects = some program) (storable : operation.storable = true)
    (alike : List.Forall₂ (ImStr.Is contents) objects values) :
    program.Ends contents (Ended contents (operation.Meaning values)) := by
  cases operation with
  | defaultConstruct kind =>
      obtain ⟨rfl, rfl⟩ := onNone_eq_some.mp body
      apply ends_creates
      refine ⟨⟨kind, []⟩, ?_, rfl⟩
      cases kind with
      | imStr => exact ⟨rfl, View.shows_empty⟩
      | imZstr => exact ⟨rfl, ⟨[0], rfl, rfl⟩, rfl, Nat.two_pow_pos 64⟩
  | fromLiteral kind array =>
      obtain ⟨rfl, rfl⟩ := onNone_eq_some.mp body
      apply ends_creates
      exact ends_fromLiteral (of_decide_eq_true storable) fun object is => ⟨_, is, rfl⟩
  | trustMe kind array size =>
      obtain ⟨rfl, rfl⟩ := onNone_eq_some.mp body
      apply ends_creates
      exact ends_trustMe (of_decide_eq_true storable) fun within object is => ⟨_, is, within, rfl⟩
  | fromView kind other =>
      obtain ⟨rfl, rfl⟩ := onNone_eq_some.mp body
      exact ends_creates (ends_fromView fun object is => ⟨_, is, rfl⟩)
  | fromViewAlloc kind other =>
      obtain ⟨rfl, rfl⟩ := onNone_eq_some.mp body
      exact ends_creates (ends_copyFrom fun object is => ⟨_, is, rfl⟩)
  | concat args =>
      obtain ⟨rfl, rfl⟩ := onNone_eq_some.mp body
      exact ends_creates (ends_concat fun object is => ⟨_, is, rfl⟩)
  | copyConstruct kind _ =>
      apply ends_onOne body alike
      intro other value program body is
      obtain ⟨-, rfl⟩ := ite_some.mp body
      apply ends_creates1 is
      exact ends_copyConstruct ⟨⟨kind, value.text⟩, ⟨rfl, is.shown⟩, rfl⟩
  | moveConstruct kind _ =>
      apply ends_onOne body alike
      intro other value program body is
      obtain ⟨-, rfl⟩ := ite_some.mp body
      apply ends_createsMoved
      exact ⟨⟨kind, value.text⟩, { value with text := [] }, ⟨rfl, is.shown⟩,
        ⟨is.kind, View.shows_empty⟩, rfl⟩
  | copyAssign this other => exact ends_body_copyAssign body alike
  | moveAssign this other => exact ends_body_moveAssign body alike
  | swap l r => exact ends_body_swap body alike
  | substr _ offset count =>
      apply ends_onOne_creates1 alike body
      exact fun is => ends_substr is.shown fun within object part => ⟨_, part, within, rfl⟩
  | substrMove _ offset count =>
      apply ends_onOne_createsMoved alike body
      intro this value is
      exact ends_substrMove is.shown fun within object part =>
        ⟨_, value, part, ⟨is.kind, is.shown⟩, within, rfl⟩
  | substrRange _ range =>
      apply ends_onOne_creates1 alike body
      intro this value is
      exact ends_substrRange is.shown fun offset starts within object part =>
        ⟨_, part, offset, within, (Nat.le_add_right _ _).trans within, rfl⟩
  | substrIterators _ start end_ =>
      apply ends_onOne_creates1 alike body
      intro this value is
      exact ends_substrIterators is.shown fun ordered within object part =>
        ⟨_, part, ordered, within, ordered.trans within, rfl⟩
  | substrSentinel _ offset sentinel => exact ends_onOne_creates1 alike body ends_substrSentinel
  | splitAt _ i =>
      apply ends_onOne_createsPair alike body
      exact fun is => ends_splitAtMode i .before is.shown
  | splitAtMode _ i s =>
      apply ends_onOne_createsPair alike body
      exact fun is => ends_splitAtMode i s is.shown
  | splitOnFirst _ c s => exact ends_onOne_createsPair alike body ends_splitOnFirst
  | splitOnLast _ c s => exact ends_onOne_createsPair alike body ends_splitOnLast
  | splitFull _ delimiter s =>
      apply ends_onOne body alike
      intro this value program body is
      cases body
      apply ends_createsAll is
      apply (ends_slices (ends_splitFull delimiter s is.shown)
        (sound_splitFull (le_refl _) fun slices parts => parts)).mono
      rintro objects ⟨⟨pieces, cut, slices⟩, kinds⟩
      exact ⟨pieces, ⟨pieces, cut, rfl⟩, slices, kinds⟩
  | unshare _ =>
      apply ends_onOne_creates1 alike body
      exact fun is => ends_unshare is.shown fun object made => ⟨_, made, rfl⟩
  | createZstr _ =>
      apply ends_onOne_creates1 alike body
      exact fun is => ends_createZstr is.shown fun object made => ⟨_, made, rfl⟩
  | createZstrMove _ =>
      apply ends_onOne_createsMoved alike body
      intro this value is
      apply ends_createZstrMove is.shown
      rintro object made left (rfl | rfl)
      · exact ⟨_, value, made, is, .inl rfl⟩
      · exact ⟨_, { value with text := [] }, made, ⟨is.kind, View.shows_empty⟩, .inr rfl⟩
  | destroy _ =>
      apply ends_onOne body alike
      intro this value program body is
      cases body
      rw [Program.ends_bind]
      exact ends_decref ⟨_, rfl, .cons .none .nil, .nil⟩

theorem means_textStrings : Means (textStrings Slot) Operation.Meaning ImStr.Is where
  monotone kept is := ⟨is.kind, is.shown.mono kept⟩
  ends := by
    intro operation objects values program contents body alike
    simp only [Interface.restrict, Option.ite_none_right_eq_some] at body
    exact ends_body body.2 body.1.2 alike

end Body

/-- The strings in runs that leave room in the counters. -/
abbrev textSystem (Slot Thread : Type) [DecidableEq Slot] [DecidableEq Thread] :
    StepSystem (Strings Slot Thread) (Action (Operation Slot) Slot Thread) Unit :=
  (machine (2 ^ 32) (textStrings Slot)).confine ((textStrings Slot).Within (2 ^ 32))

/-- Strings that share buffers behave as values that share nothing, whatever the threads do meanwhile:
each interleaving of operations has the effect of the same operations on values, each at once and in the
order of their ends. Each live string has the class and the characters of its value, and these lie in
memory that was not given back. -/
theorem strings_are_values {actions : List (Action (Operation Slot) Slot Thread)} {history : List Unit}
    {state : Strings Slot Thread}
    (executed : (textSystem Slot Thread).execute {} actions = some (history, state)) :
    ∃ store, Sequential Operation.sources Operation.Meaning (fun _ => none)
        (ended (fun _ => none) actions) store ∧
      ∀ slot object, (slot, object) ∈ state.objects → ∃ value, store slot = some value ∧
        object.Is state.memory.content value ∧
        ∀ block, object.view.storage = .buffer block → value.text ≠ [] →
          state.memory.freed block = 0 := by
  have bounded := StepSystem.run_of_execute actions executed
  have counted : Counted (textStrings Slot) state :=
    run_counted (by decide) (by decide) lawful_textStrings bounded
  have accounts : Accounts (2 ^ 32) (textStrings Slot) (fun _ => Anchored) state :=
    run_accounts (by decide) lawful_textStrings bounded.unconfine
  obtain ⟨store, sequential, depicted⟩ :=
    run_sequential means_textStrings (by decide) lawful_textStrings
      (StepSystem.execute_unconfine executed)
  refine ⟨store, sequential, fun slot object member => ?_⟩
  obtain ⟨value, found, is⟩ := depicted slot object member
  refine ⟨value, found, is, fun block storage nonempty => ?_⟩
  have live : object ∈ Pool.values state.objects := List.mem_map_of_mem member
  have shown : object.view.size ≠ 0 := by
    rw [← is.shown.length]
    exact fun none => nonempty (List.length_eq_zero_iff.mp none)
  have anchored := accounts.objects object live
  simp only [Anchored, storage, shown, false_or] at anchored
  exact counted.alive live (Handle.mem_tokens anchored)

/-- One thread ends a string that it has split, while another one copies a slice. -/
def valueActions : List (Action (Operation Nat) Nat Nat) :=
  [.begin 0 (.fromView .imStr (some (ascii "a,b"))), .tick 0, .finish 0 [0],
    .begin 0 (.splitFull 0 44 .drop), .tick 0, .tick 0, .finish 0 [1, 2],
    .begin 0 (.destroy 0), .begin 1 (.copyConstruct .imStr 2), .tick 1, .finish 1 [3]]

theorem strings_are_values_split :
    ∃ history state, (textSystem Nat Nat).execute {} valueActions = some (history, state) ∧
      ∃ store, Sequential Operation.sources Operation.Meaning (fun _ => none)
          [(.fromView .imStr (some (ascii "a,b")), [0]), (.splitFull 0 44 .drop, [1, 2]),
            (.copyConstruct .imStr 2, [3])] store ∧
        store 3 = some ⟨.imStr, ascii "b"⟩ ∧ state.memory.freed 0 = 0 := by
  have executed : ((textSystem Nat Nat).execute {} valueActions).map
      (fun answer => (Pool.get 3 answer.2.objects, answer.2.memory.content 0)) =
      some (some ⟨.imStr, ⟨.buffer 0, 2, 1⟩, some 0⟩, some (ascii "a,b" ++ [0])) := by
    decide +kernel
  obtain ⟨⟨history, state⟩, ran, final⟩ := Option.map_eq_some_iff.mp executed
  obtain ⟨copied, stored⟩ := Prod.mk.inj final
  obtain ⟨store, sequential, depicted⟩ := strings_are_values ran
  obtain ⟨value, found, is, alive⟩ := depicted 3 _ (Pool.mem_of_get copied)
  have text : value.text = ascii "b" := by
    apply is.shown.unique
    exact ⟨⟨_, stored, rfl⟩, rfl, by decide⟩
  refine ⟨history, state, ran, store, sequential, ?_, alive 0 rfl (by rw [text]; decide)⟩
  rw [found, ← text]
  have kind : Kind.imStr = value.kind := is.kind
  rw [kind]

end MartCommon.Mba
