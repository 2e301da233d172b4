import MartCommon.Mba.StringSpecs

namespace MartCommon.Mba

open Library Library.RefCount

variable {Slot : Type}

/-- The object that an operation moves out of. -/
def Operation.moved : Operation Slot → List ImStr → Option ImStr
  | .moveConstruct _ _, [other] => some other
  | .moveAssign _ _, [_, other] => some other
  | .createZstrMove _, [this] => some this
  | _, _ => none

/-- The object that `substr &&` takes the handle from, unless the offset is beyond its end. -/
def Operation.stripped : Operation Slot → List ImStr → Option ImStr
  | .substrMove _ offset _, [this] => if offset ≤ this.view.size then some this else none
  | _, _ => none

/-- The object that loses its handle is a source of the operation. -/
theorem Operation.mem_of_stripped {operation : Operation Slot} {objects : List ImStr}
    {source : ImStr} (stripped : operation.stripped objects = some source) : source ∈ objects := by
  unfold Operation.stripped at stripped
  split at stripped
  · simp only [Option.ite_none_right_eq_some, Option.some.injEq] at stripped
    simp [stripped.2]
  · contradiction

/-- Where an object that an operation leaves or creates comes from. -/
inductive Origin (contents : Block → Option Text) (operation : Operation Slot)
    (sources : List ImStr) : ImStr → Prop where
  | fresh {kind : Kind} {object : ImStr} (fresh : Fresh contents kind object) :
      Origin contents operation sources object
  | trusted {kind : Kind} {array : Text} {size : Nat}
      (named : operation = .trustMe kind array size) :
      Origin contents operation sources { kind := kind, view := ⟨.literal array, 0, size⟩ }
  | empty : Origin contents operation sources (defaultConstruct .imStr)
  | part {source object : ImStr} (member : source ∈ sources) (part : Part source object) :
      Origin contents operation sources object
  | whole {source : ImStr} (member : source ∈ sources) (kind : Kind)
      (terminated : kind = .imZstr → source.kind = .imZstr ∨
        source.view.byteAt contents source.view.size = some 0) :
      Origin contents operation sources { source with kind := kind }
  | moved {source : ImStr} (moved : operation.moved sources = some source) :
      Origin contents operation sources (movedFrom source)
  | stripped {source : ImStr} (stripped : operation.stripped sources = some source) :
      Origin contents operation sources { source with handle := none }

section Sources

variable {contents : Block → Option Text} {operation : Operation Slot} {sources : List ImStr}

/-- An object that stays as it is has itself as its origin. -/
theorem Origin.unchanged {this : ImStr} (member : this ∈ sources) :
    Origin contents operation sources this :=
  .whole member this.kind .inl

/-- A string keeps its origin under the class of another one that may take it. -/
theorem Origin.taken {other : ImStr} {kind : Kind} (member : other ∈ sources)
    (takes : kind.takes other = true) :
    Origin contents operation sources { other with kind := kind } := by
  refine .whole member kind fun zstr => .inl ?_
  simpa [Kind.takes, zstr] using takes

end Sources

variable [DecidableEq Slot]

/-- What an operation delivers: its sources have their rest, the handles in hand are those of its
objects, and each object has its origin. -/
abbrev Traced (contents : Block → Option Text) (operation : Operation Slot)
    (sources : List ImStr) : Outcome ImStr → Multiset Block → Prop :=
  Delivers (strings Slot) (fun contents => Origin contents operation sources) contents
    sources.length

section Traced

variable {contents : Block → Option Text} {operation : Operation Slot} {this other : ImStr}

/-- The handles of strings are those of their members. -/
theorem strings_tokens (objects : List ImStr) :
    (strings Slot).tokens objects = (objects.map fun object => object.handle.tokens).sum := rfl

/-- A function that keeps its string has it next to what it creates. -/
theorem objects_kept (created : List ImStr) :
    Outcome.objects { kept := [some this], created := created } = this :: created := rfl

theorem traced_creates {created : Prog ImStr}
    (sound : created.Sound contents
      (fun object left => Origin contents operation [] object ∧ left = object.handle.tokens)
      none 0) :
    (creates created).Sound contents (Traced contents operation []) none
      ((strings Slot).tokens []) := by
  refine .bind (sound.mono ?_)
  rintro object left ⟨origin, rfl⟩
  refine Program.sound_pure.mpr ⟨rfl, ?_, ?_⟩
  · simp [strings_tokens, Outcome.objects]
  · simpa [Outcome.objects] using origin

theorem traced_creates1 {created : Prog ImStr}
    (sound : created.Sound contents
      (fun object left => Origin contents operation [this] object ∧
        left = object.handle.tokens + this.handle.tokens) none this.handle.tokens) :
    (creates1 this created).Sound contents (Traced contents operation [this]) none
      ((strings Slot).tokens [this]) := by
  rw [strings_tokens, List.map_singleton, List.sum_singleton]
  refine .bind (sound.mono ?_)
  rintro object left ⟨origin, rfl⟩
  refine Program.sound_pure.mpr ⟨rfl, ?_, ?_⟩
  · simp [strings_tokens, objects_kept, add_comm]
  · simpa [objects_kept] using ⟨Origin.unchanged (List.mem_singleton_self this), origin⟩

theorem traced_createsMoved {created : Prog (ImStr × ImStr)}
    (sound : created.Sound contents
      (fun objects left => Origin contents operation [this] objects.1 ∧
        Origin contents operation [this] objects.2 ∧
        left = objects.1.handle.tokens + objects.2.handle.tokens) none this.handle.tokens) :
    (createsMoved created).Sound contents (Traced contents operation [this]) none
      ((strings Slot).tokens [this]) := by
  rw [strings_tokens, List.map_singleton, List.sum_singleton]
  refine .bind (sound.mono ?_)
  rintro ⟨object, remains⟩ left ⟨origin, origin', rfl⟩
  refine Program.sound_pure.mpr ⟨rfl, ?_, ?_⟩
  · simp [strings_tokens, objects_kept, add_comm]
  · simpa [objects_kept] using ⟨origin', origin⟩

theorem traced_createsPair {created : Prog (ImStr × ImStr)}
    (sound : created.Sound contents
      (fun objects left => Part this objects.1 ∧ Part this objects.2 ∧
        left = objects.1.handle.tokens + (objects.2.handle.tokens + this.handle.tokens)) none
      this.handle.tokens) :
    (createsPair this created).Sound contents (Traced contents operation [this]) none
      ((strings Slot).tokens [this]) := by
  rw [strings_tokens, List.map_singleton, List.sum_singleton]
  refine .bind (sound.mono ?_)
  rintro ⟨first, second⟩ left ⟨front, back, rfl⟩
  have member : this ∈ [this] := List.mem_singleton_self this
  refine Program.sound_pure.mpr ⟨rfl, ?_, ?_⟩
  · simp only [strings_tokens, objects_kept, List.map_cons, List.map_nil, List.sum_cons,
      List.sum_nil, add_zero]
    rw [← add_assoc, add_comm]
  · simpa [objects_kept] using
      ⟨Origin.unchanged member, Origin.part member front, Origin.part member back⟩

theorem traced_createsAll {created : Prog (List ImStr)}
    (sound : created.Sound contents
      (fun objects left => (∀ object ∈ objects, Part this object) ∧
        left = (objects.map fun object => object.handle.tokens).sum + this.handle.tokens) none
      this.handle.tokens) :
    (createsAll this created).Sound contents (Traced contents operation [this]) none
      ((strings Slot).tokens [this]) := by
  rw [strings_tokens, List.map_singleton, List.sum_singleton]
  refine .bind (sound.mono ?_)
  rintro objects left ⟨parts, rfl⟩
  have member : this ∈ [this] := List.mem_singleton_self this
  refine Program.sound_pure.mpr ⟨rfl, ?_, ?_⟩
  · simp [strings_tokens, objects_kept, add_comm]
  · intro object inside
    rw [objects_kept] at inside
    rcases List.mem_cons.mp inside with rfl | inside
    · exact .unchanged member
    · exact .part member (parts object inside)

/-- The handles of one string and of two strings. -/
theorem tokens_one : (strings Slot).tokens [this] = this.handle.tokens := by
  simp [strings_tokens]

theorem tokens_two :
    (strings Slot).tokens [this, other] = this.handle.tokens + other.handle.tokens := by
  simp [strings_tokens]

/-- Where both objects stay, each of them needs its origin. -/
theorem traced_kept {first second : ImStr} {left : Multiset Block}
    (handles : left = first.handle.tokens + second.handle.tokens)
    (origin : Origin contents operation [this, other] first)
    (origin' : Origin contents operation [this, other] second) :
    Traced contents operation [this, other] { kept := [some first, some second] } left := by
  refine ⟨rfl, ?_, ?_⟩
  · rw [handles]
    exact tokens_two.symm
  · intro object inside
    rcases List.mem_cons.mp inside with rfl | inside
    · exact origin
    · rw [List.mem_singleton.mp inside]
      exact origin'

/-- Where the one object stays as it is, nothing needs an origin. -/
theorem traced_self :
    Traced contents operation [this] { kept := [some this] } this.handle.tokens := by
  refine ⟨rfl, tokens_one.symm, ?_⟩
  intro object inside
  rw [List.mem_singleton.mp inside]
  exact .unchanged (List.mem_singleton_self this)

end Traced

section Body

variable {contents : Block → Option Text} {objects : List ImStr} {program : Prog (Outcome ImStr)}

/-- An assigned string shares the handle and the view of the other one. -/
theorem traced_copyAssign {this other : Slot}
    (body : (Operation.copyAssign this other).body objects = some program) :
    program.Sound contents (Traced contents (.copyAssign this other) objects) none
      ((strings Slot).tokens objects) := by
  simp only [Operation.body] at body
  split at body
  · obtain ⟨this, rfl, body⟩ := onOne_eq_some.mp body
    cases body
    rw [tokens_one, ← add_zero this.handle.tokens]
    refine .bind (sound_copyAssign (Multiset.le_add_right _ _) (Program.sound_pure.mpr ?_))
    rw [add_zero]
    exact traced_self
  · obtain ⟨this, other, rfl, body⟩ := onTwo_eq_some.mp body
    obtain ⟨takes, rfl⟩ := ite_some.mp body
    have back : other ∈ [this, other] := by simp
    rw [tokens_two]
    refine .bind (sound_copyAssign (Multiset.le_add_left _ _) (Program.sound_pure.mpr ?_))
    exact traced_kept rfl (.taken back takes) (.unchanged back)

/-- A move assignment passes the handle and the view on, but nothing from a string to itself. -/
theorem traced_moveAssign {this other : Slot}
    (body : (Operation.moveAssign this other).body objects = some program) :
    program.Sound contents (Traced contents (.moveAssign this other) objects) none
      ((strings Slot).tokens objects) := by
  simp only [Operation.body] at body
  split at body
  · obtain ⟨this, rfl, body⟩ := onOne_eq_some.mp body
    cases body
    rw [tokens_one]
    exact .bind (sound_selfMoveAssign (Program.sound_pure.mpr traced_self))
  · obtain ⟨this, other, rfl, body⟩ := onTwo_eq_some.mp body
    obtain ⟨takes, rfl⟩ := ite_some.mp body
    have back : other ∈ [this, other] := by simp
    rw [tokens_two]
    refine .bind (sound_moveAssign (Program.sound_pure.mpr ?_))
    exact traced_kept (add_zero _).symm (.taken back takes) (.moved rfl)

/-- The two strings of a swap have each other as their origins. -/
theorem traced_swap {l r : Slot} (body : (Operation.swap l r).body objects = some program) :
    program.Sound contents (Traced contents (.swap l r) objects) none
      ((strings Slot).tokens objects) := by
  simp only [Operation.body] at body
  split at body
  · obtain ⟨l, rfl, body⟩ := onOne_eq_some.mp body
    cases body
    rw [tokens_one]
    exact Program.sound_pure.mpr traced_self
  · obtain ⟨l, r, rfl, body⟩ := onTwo_eq_some.mp body
    obtain ⟨same, rfl⟩ := ite_some.mp body
    have front : l ∈ [l, r] := List.mem_cons_self
    have back : r ∈ [l, r] := by simp
    rw [tokens_two, add_comm]
    refine Program.sound_pure.mpr (traced_kept rfl ?_ ?_)
    · exact .whole back l.kind fun zstr => .inl (same.symm.trans zstr)
    · exact .whole front r.kind fun zstr => .inl (same.trans zstr)

/-- `substr &&` moves the handle into the part, but leaves the view that needed it. -/
theorem traced_substrMove {slot : Slot} {this : ImStr} {offset count : Nat} :
    (createsMoved (this.substrMove offset count)).Sound contents
      (Traced contents (.substrMove slot offset count) [this]) none
      ((strings Slot).tokens [this]) := by
  apply traced_createsMoved
  unfold ImStr.substrMove
  split
  · exact Program.sound_abort
  · rename_i view taken
    obtain ⟨storage, shorter, back⟩ := View.substr_storage taken
    have inside : offset ≤ this.view.size := (Option.ite_none_right_eq_some.mp taken).1
    have member : this ∈ [this] := List.mem_singleton_self this
    refine Program.sound_pure.mpr ⟨.part member (.slice view storage shorter back), ?_, ?_⟩
    · exact .stripped (if_pos inside)
    · exact (add_zero _).symm

/-- `create_zstr` shares the handle only where the view is terminated already. -/
theorem traced_createZstr {slot : Slot} {this : ImStr} :
    (creates1 this this.createZstr).Sound contents (Traced contents (.createZstr slot) [this])
      none ((strings Slot).tokens [this]) := by
  refine traced_creates1 (.bind (sound_isZeroTerminated fun terminated zero => ?_))
  split
  · rename_i yes
    have member : this ∈ [this] := List.mem_singleton_self this
    exact sound_copyConstruct (le_refl _) ⟨.whole member .imZstr fun _ => .inr (zero yes), rfl⟩
  · exact sound_unshare fun object fresh => ⟨.fresh fresh, rfl⟩

/-- `create_zstr &&` moves from its string only where the view is terminated already. -/
theorem traced_createZstrMove {slot : Slot} {this : ImStr} :
    (createsMoved this.createZstrMove).Sound contents
      (Traced contents (.createZstrMove slot) [this]) none ((strings Slot).tokens [this]) := by
  have member : this ∈ [this] := List.mem_singleton_self this
  refine traced_createsMoved (.bind (sound_isZeroTerminated fun terminated zero => ?_))
  split
  · rename_i yes
    exact Program.sound_pure.mpr
      ⟨.whole member .imZstr fun _ => .inr (zero yes), .moved rfl, (add_zero _).symm⟩
  · exact .bind (sound_unshare fun object fresh => Program.sound_pure.mpr
      ⟨.fresh fresh, .unchanged member, rfl⟩)

variable {operation : Operation Slot}

/-- Each operation accounts for all handles and gives each of its objects an origin. -/
theorem body_sound (body : operation.body objects = some program) :
    program.Sound contents (Traced contents operation objects) none
      ((strings Slot).tokens objects) := by
  have member : ∀ this : ImStr, this ∈ [this] := List.mem_singleton_self
  cases operation with
  | defaultConstruct kind =>
      obtain ⟨rfl, rfl⟩ := onNone_eq_some.mp body
      refine traced_creates (Program.sound_pure.mpr ?_)
      cases kind with
      | imStr => exact ⟨.empty, rfl⟩
      | imZstr => exact ⟨.fresh (.literal [0] 0 rfl), rfl⟩
  | fromLiteral kind array =>
      obtain ⟨rfl, rfl⟩ := onNone_eq_some.mp body
      exact traced_creates (sound_fromLiteral fun object fresh => ⟨.fresh fresh, add_zero _⟩)
  | trustMe kind array size =>
      obtain ⟨rfl, rfl⟩ := onNone_eq_some.mp body
      apply traced_creates
      unfold trustMe
      split
      · exact Program.sound_pure.mpr ⟨.trusted rfl, rfl⟩
      · exact Program.sound_abort
  | fromView kind text =>
      obtain ⟨rfl, rfl⟩ := onNone_eq_some.mp body
      exact traced_creates (sound_fromView fun object fresh => ⟨.fresh fresh, add_zero _⟩)
  | fromViewAlloc kind text =>
      obtain ⟨rfl, rfl⟩ := onNone_eq_some.mp body
      exact traced_creates (sound_fromViewAlloc fun object fresh => ⟨.fresh fresh, add_zero _⟩)
  | concat args =>
      obtain ⟨rfl, rfl⟩ := onNone_eq_some.mp body
      exact traced_creates (sound_concat fun object fresh => ⟨.fresh fresh, add_zero _⟩)
  | copyConstruct kind _ =>
      obtain ⟨other, rfl, body⟩ := onOne_eq_some.mp body
      obtain ⟨takes, rfl⟩ := ite_some.mp body
      exact traced_creates1 (sound_copyConstruct (le_refl _) ⟨.taken (member other) takes, rfl⟩)
  | moveConstruct kind _ =>
      obtain ⟨other, rfl, body⟩ := onOne_eq_some.mp body
      obtain ⟨takes, rfl⟩ := ite_some.mp body
      exact traced_createsMoved (Program.sound_pure.mpr
        ⟨.taken (member other) takes, .moved rfl, (add_zero _).symm⟩)
  | copyAssign this other => exact traced_copyAssign body
  | moveAssign this other => exact traced_moveAssign body
  | swap l r => exact traced_swap body
  | substr _ offset count =>
      obtain ⟨this, rfl, body⟩ := onOne_eq_some.mp body
      cases body
      exact traced_creates1 (sound_substr (le_refl _) fun object part =>
        ⟨.part (member this) part, rfl⟩)
  | substrMove _ offset count =>
      obtain ⟨this, rfl, body⟩ := onOne_eq_some.mp body
      cases body
      exact traced_substrMove
  | substrRange _ range =>
      obtain ⟨this, rfl, body⟩ := onOne_eq_some.mp body
      cases body
      exact traced_creates1 (sound_substrRange (le_refl _) fun object part =>
        ⟨.part (member this) part, rfl⟩)
  | substrIterators _ start end_ =>
      obtain ⟨this, rfl, body⟩ := onOne_eq_some.mp body
      cases body
      exact traced_creates1 (sound_substrIterators (le_refl _) fun object part =>
        ⟨.part (member this) part, rfl⟩)
  | substrSentinel _ offset sentinel =>
      obtain ⟨this, rfl, body⟩ := onOne_eq_some.mp body
      cases body
      exact traced_creates1 (sound_substrSentinel (le_refl _) fun object part =>
        ⟨.part (member this) part, rfl⟩)
  | splitAt _ i =>
      obtain ⟨this, rfl, body⟩ := onOne_eq_some.mp body
      cases body
      exact traced_createsPair (sound_splitAt (le_refl _) fun first second left right =>
        ⟨left, right, rfl⟩)
  | splitAtMode _ i s =>
      obtain ⟨this, rfl, body⟩ := onOne_eq_some.mp body
      cases body
      exact traced_createsPair (sound_splitAtMode (le_refl _) fun first second left right =>
        ⟨left, right, rfl⟩)
  | splitOnFirst _ c s =>
      obtain ⟨this, rfl, body⟩ := onOne_eq_some.mp body
      cases body
      exact traced_createsPair (sound_splitOnFirst (le_refl _) fun first second left right =>
        ⟨left, right, rfl⟩)
  | splitOnLast _ c s =>
      obtain ⟨this, rfl, body⟩ := onOne_eq_some.mp body
      cases body
      exact traced_createsPair (sound_splitOnLast (le_refl _) fun first second left right =>
        ⟨left, right, rfl⟩)
  | splitFull _ delimiter s =>
      obtain ⟨this, rfl, body⟩ := onOne_eq_some.mp body
      cases body
      exact traced_createsAll (sound_splitFull (le_refl _) fun slices parts =>
        ⟨parts, rfl⟩)
  | unshare _ =>
      obtain ⟨this, rfl, body⟩ := onOne_eq_some.mp body
      cases body
      exact traced_creates1 (sound_unshare fun object fresh => ⟨.fresh fresh, rfl⟩)
  | createZstr _ =>
      obtain ⟨this, rfl, body⟩ := onOne_eq_some.mp body
      cases body
      exact traced_createZstr
  | createZstrMove _ =>
      obtain ⟨this, rfl, body⟩ := onOne_eq_some.mp body
      cases body
      exact traced_createZstrMove
  | destroy _ =>
      obtain ⟨this, rfl, body⟩ := onOne_eq_some.mp body
      cases body
      rw [tokens_one, ← add_zero this.handle.tokens]
      refine .bind (sound_destroy (Program.sound_pure.mpr ⟨rfl, rfl, ?_⟩))
      simp [Outcome.objects]

/-- An interface that offers some of the operations is lawful when valid objects give objects that
are valid by their origins. -/
theorem lawful_of_origins {condition : Operation Slot → List ImStr → Prop}
    [∀ operation objects, Decidable (condition operation objects)]
    {valid : (Block → Option Text) → ImStr → Prop}
    (monotone : ∀ {earlier later object}, Extends earlier later → valid earlier object →
      valid later object)
    (keeps : ∀ {operation objects contents object}, condition operation objects →
      (∀ source ∈ objects, valid contents source) →
      Origin contents operation objects object → valid contents object) :
    Lawful ((strings Slot).restrict condition) valid where
  monotone := monotone
  sound := by
    intro operation objects program contents body length valids
    simp only [Interface.restrict, Option.ite_none_right_eq_some] at body
    obtain ⟨met, body⟩ := body
    refine (body_sound body).mono fun outcome held traced => ⟨?_, traced.handles, ?_⟩
    · exact traced.kept.trans length
    · exact fun object inside => keeps met valids (traced.objects object inside)

end Body

end MartCommon.Mba
