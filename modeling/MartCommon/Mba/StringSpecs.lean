import MartCommon.Library.RefCountSafety
import MartCommon.Mba.Operations

namespace MartCommon.Mba

open Library Library.RefCount

/-- A new string of its own: zero terminated static characters, or a buffer with its first handle. -/
inductive Fresh (contents : Block → Option Text) (kind : Kind) : ImStr → Prop where
  | literal (array : Text) (size : Nat) (terminated : array[size]? = some 0) :
      Fresh contents kind { kind := kind, view := ⟨.literal array, 0, size⟩ }
  | stored (block : Block) (chars : Text) (stored : contents block = some (chars ++ [0])) :
      Fresh contents kind
        { kind := kind, view := ⟨.buffer block, 0, chars.length⟩, handle := some block }

/-- A part of a string points into the same object and has a handle on the same buffer, unless it is
the default string. -/
inductive Part (this : ImStr) : ImStr → Prop where
  | empty : Part this (defaultConstruct .imStr)
  | slice (view : View) (storage : view.storage = this.view.storage)
      (shorter : view.size ≤ this.view.size)
      (inside : view.offset + view.size ≤ this.view.offset + this.view.size) :
      Part this { kind := .imStr, view := view, handle := this.handle }

/-- Each part is an `im_str`. -/
theorem Part.kind_eq {this object : ImStr} (part : Part this object) :
    { object with kind := .imStr } = object := by
  cases part with
  | empty => rfl
  | slice view storage shorter inside => rfl

section Sound

variable {contents : Block → Option Text} {held rest : Multiset Block} {this other : ImStr}
  {kind : Kind}

theorem sound_fromLiteral {array : Text} {post : ImStr → Multiset Block → Prop}
    (ends : ∀ object, Fresh contents kind object → post object (object.handle.tokens + held)) :
    (fromLiteral kind array).Sound contents post none held := by
  apply Program.Sound.bind
  unfold View.ofArray
  split
  · exact Program.sound_abort
  · rename_i size found
    obtain ⟨within, zero, -⟩ := List.findIdx?_eq_some_iff_getElem.mp found
    have terminated : array[size]? = some 0 := by
      rw [List.getElem?_eq_getElem within]
      exact congrArg some (by simpa using zero)
    simpa using ends _ (.literal array size terminated)

theorem sound_destroy {post : Unit → Multiset Block → Prop} (ends : post () rest) :
    (destroy this).Sound contents post none (this.handle.tokens + rest) :=
  sound_decref ends

/-- An object without a handle ends without an update. -/
theorem sound_destroy_empty {post : Unit → Multiset Block → Prop} (empty : this.handle = none)
    (ends : post () held) : (destroy this).Sound contents post none held := by
  have uncounted : held = this.handle.tokens + held := by simp [empty]
  rw [uncounted]
  exact sound_destroy ends

theorem sound_copyConstruct {post : ImStr → Multiset Block → Prop}
    (counted : other.handle.tokens ≤ held)
    (ends : post { other with kind := kind } (other.handle.tokens + held)) :
    (copyConstruct kind other).Sound contents post none held :=
  .bind (AtomicRefCntBuffer.sound_copyConstruct counted (Program.sound_pure.mpr ends))

theorem sound_copyAssign {post : ImStr → Multiset Block → Prop}
    (counted : other.handle.tokens ≤ this.handle.tokens + rest)
    (ends : post { other with kind := this.kind } (other.handle.tokens + rest)) :
    (copyAssign this other).Sound contents post none (this.handle.tokens + rest) :=
  .bind (AtomicRefCntBuffer.sound_copyAssign counted (Program.sound_pure.mpr ends))

theorem sound_moveAssign {post : ImStr × ImStr → Multiset Block → Prop}
    (ends : post ({ other with kind := this.kind }, movedFrom other) rest) :
    (moveAssign this other).Sound contents post none (this.handle.tokens + rest) :=
  .bind (AtomicRefCntBuffer.sound_moveAssign (Program.sound_pure.mpr ends))

/-- The assignment to an object without a handle makes no update. -/
theorem sound_moveAssign_empty {post : ImStr × ImStr → Multiset Block → Prop}
    (empty : this.handle = none)
    (ends : post ({ other with kind := this.kind }, movedFrom other) held) :
    (moveAssign this other).Sound contents post none held := by
  have uncounted : held = this.handle.tokens + held := by simp [empty]
  rw [uncounted]
  exact sound_moveAssign ends

theorem sound_selfMoveAssign {post : ImStr → Multiset Block → Prop} (ends : post this held) :
    (selfMoveAssign this).Sound contents post none held :=
  .bind (AtomicRefCntBuffer.sound_selfMoveAssign (Program.sound_pure.mpr ends))

/-- A copied text is static when it is null, and otherwise in a buffer of its own. -/
theorem sound_copyFrom {text : Option Text} {post : ImStr → Multiset Block → Prop}
    (ends : ∀ object, Fresh contents kind object → post object (object.handle.tokens + held)) :
    (copyFrom { kind := kind } text).Sound contents post none held := by
  cases text with
  | none => simpa [copyFrom, getEmptyZeroTerminatedStringView] using ends _ (.literal [0] 0 rfl)
  | some chars =>
      refine .bind (AtomicRefCntBuffer.sound_allocate fun block stored => .bind ?_)
      have made := ends _ (.stored block chars stored)
      apply sound_moveAssign_empty rfl
      apply Program.Sound.bind
      exact sound_destroy_empty rfl (Program.sound_pure.mpr made)

theorem sound_fromView {text : Option Text} {post : ImStr → Multiset Block → Prop}
    (ends : ∀ object, Fresh contents kind object → post object (object.handle.tokens + held)) :
    (fromView kind text).Sound contents post none held := by
  unfold fromView
  cases kind with
  | imStr => exact sound_copyFrom ends
  | imZstr => exact sound_copyFrom ends

theorem sound_fromViewAlloc {text : Option Text} {post : ImStr → Multiset Block → Prop}
    (ends : ∀ object, Fresh contents kind object → post object (object.handle.tokens + held)) :
    (fromViewAlloc kind text).Sound contents post none held :=
  sound_copyFrom ends

theorem sound_concat {args : List Text} {post : ImStr → Multiset Block → Prop}
    (ends : ∀ object, Fresh contents .imZstr object → post object (object.handle.tokens + held)) :
    (concat args).Sound contents post none held :=
  .bind (AtomicRefCntBuffer.sound_allocate fun block stored =>
    Program.sound_pure.mpr (ends _ (.stored block args.flatten stored)))

section Parts

variable {post : ImStr → Multiset Block → Prop}
  {post2 : ImStr × ImStr → Multiset Block → Prop}

theorem sound_substr {offset count : Nat} (counted : this.handle.tokens ≤ held)
    (ends : ∀ object, Part this object → post object (object.handle.tokens + held)) :
    (this.substr offset count).Sound contents post none held := by
  unfold ImStr.substr
  split
  · exact Program.sound_abort
  · rename_i view taken
    obtain ⟨storage, shorter, inside⟩ := View.substr_storage taken
    refine .bind (AtomicRefCntBuffer.sound_copyConstruct counted (Program.sound_pure.mpr ?_))
    exact ends _ (.slice view storage shorter inside)

theorem sound_substrRange {range : View} (counted : this.handle.tokens ≤ held)
    (ends : ∀ object, Part this object → post object (object.handle.tokens + held)) :
    (this.substrRange range).Sound contents post none held := by
  unfold ImStr.substrRange
  split
  · rename_i inside
    obtain ⟨storage, front, back⟩ := inside
    refine .bind (AtomicRefCntBuffer.sound_copyConstruct counted (Program.sound_pure.mpr ?_))
    exact ends _ (.slice range storage (by omega) back)
  · exact Program.sound_abort

theorem sound_substrIterators {start end_ : Nat} (counted : this.handle.tokens ≤ held)
    (ends : ∀ object, Part this object → post object (object.handle.tokens + held)) :
    (this.substrIterators start end_).Sound contents post none held := by
  unfold ImStr.substrIterators
  split
  · exact sound_substrRange counted ends
  · exact Program.sound_abort

theorem sound_substrSentinel {offset : Nat} {sentinel : UInt8}
    (counted : this.handle.tokens ≤ held)
    (ends : ∀ object, Part this object → post object (object.handle.tokens + held)) :
    (this.substrSentinel offset sentinel).Sound contents post none held :=
  .bind (View.sound_chars fun _ => sound_substr counted ends)

/-- The temporaries of a pair end without a handle. -/
theorem sound_makePair {first second : ImStr}
    (ends : post2 ({ first with kind := .imStr }, { second with kind := .imStr }) held) :
    (ImStr.makePair first second).Sound contents post2 none held := by
  apply Program.Sound.bind
  apply sound_destroy_empty rfl
  apply Program.Sound.bind
  exact sound_destroy_empty rfl (Program.sound_pure.mpr ends)

theorem sound_whole (counted : this.handle.tokens ≤ held)
    (ends : ∀ first second, Part this first → Part this second →
      post2 (first, second) (first.handle.tokens + (second.handle.tokens + held))) :
    this.whole.Sound contents post2 none held := by
  refine .bind (sound_copyConstruct counted ?_)
  apply Program.Sound.bind
  refine sound_copyConstruct (Multiset.zero_le _) (Program.sound_pure.mpr ?_)
  have both := ends _ _ (.slice this.view rfl (Nat.le_refl _) (Nat.le_refl _)) .empty
  rw [add_left_comm] at both
  exact both

/-- Two parts of a string make a pair of parts. -/
theorem sound_parts {offset count offset' count' : Nat} (counted : this.handle.tokens ≤ held)
    (ends : ∀ first second, Part this first → Part this second →
      post2 (first, second) (first.handle.tokens + (second.handle.tokens + held))) :
    Program.Sound contents post2 none held (do
      let first ← this.substr offset count
      let second ← this.substr offset' count'
      ImStr.makePair first second) := by
  refine .bind (sound_substr counted fun first front => ?_)
  refine .bind (sound_substr (le_add_of_nonneg_of_le (Multiset.zero_le _) counted)
    fun second back => ?_)
  rw [add_left_comm]
  apply sound_makePair
  rw [front.kind_eq, back.kind_eq]
  exact ends first second front back

theorem sound_splitAt {i : Nat} (counted : this.handle.tokens ≤ held)
    (ends : ∀ first second, Part this first → Part this second →
      post2 (first, second) (first.handle.tokens + (second.handle.tokens + held))) :
    (this.splitAt i).Sound contents post2 none held := by
  unfold ImStr.splitAt
  split
  · split
    · exact sound_whole counted ends
    · exact sound_parts counted ends
  · exact Program.sound_abort

theorem sound_splitAtMode {i : Nat} {s : Split} (counted : this.handle.tokens ≤ held)
    (ends : ∀ first second, Part this first → Part this second →
      post2 (first, second) (first.handle.tokens + (second.handle.tokens + held))) :
    (this.splitAtMode i s).Sound contents post2 none held := by
  unfold ImStr.splitAtMode
  split
  · split
    · exact sound_whole counted ends
    · exact sound_parts counted ends
  · exact Program.sound_abort

theorem sound_splitOnFirst {c : UInt8} {s : Split} (counted : this.handle.tokens ≤ held)
    (ends : ∀ first second, Part this first → Part this second →
      post2 (first, second) (first.handle.tokens + (second.handle.tokens + held))) :
    (this.splitOnFirst c s).Sound contents post2 none held :=
  .bind (View.sound_chars fun _ => sound_splitAtMode counted ends)

theorem sound_splitOnLast {c : UInt8} {s : Split} (counted : this.handle.tokens ≤ held)
    (ends : ∀ first second, Part this first → Part this second →
      post2 (first, second) (first.handle.tokens + (second.handle.tokens + held))) :
    (this.splitOnLast c s).Sound contents post2 none held :=
  .bind (View.sound_chars fun _ => sound_splitAtMode counted ends)

end Parts

/-- The loop counts nothing, and each of its slices has the handle of the string. -/
theorem sound_splitLoop {chars : Text} {delimiter : UInt8} {s : Split} {left startPos : Nat}
    {post : List ImStr × Nat → Multiset Block → Prop}
    (ends : ∀ slices last, (∀ object ∈ slices, Part this object) →
      (slices.map fun object => object.handle.tokens).sum = left • this.handle.tokens →
      post (slices, last) held) :
    (this.splitLoop chars delimiter s left startPos).Sound contents post none held := by
  induction left generalizing startPos post with
  | zero => exact Program.sound_pure.mpr (ends [] startPos (by simp) (by simp))
  | succ left ih =>
      unfold ImStr.splitLoop
      simp only
      split
      · exact Program.sound_abort
      · rename_i view taken
        obtain ⟨storage, shorter, inside⟩ := View.substr_storage taken
        refine .bind (sound_moveAssign_empty rfl ?_)
        refine .bind (sound_destroy_empty rfl ?_)
        refine .bind (ih fun slices last parts counts => Program.sound_pure.mpr ?_)
        apply ends
        · intro object member
          rcases List.mem_cons.mp member with rfl | member
          · exact .slice view storage shorter inside
          · exact parts object member
        · rw [List.map_cons, List.sum_cons, counts, succ_nsmul']

/-- The slices are counted by the update at the end. -/
theorem sound_splitFull {delimiter : UInt8} {s : Split}
    {post : List ImStr → Multiset Block → Prop} (counted : this.handle.tokens ≤ held)
    (ends : ∀ slices, (∀ object ∈ slices, Part this object) →
      post slices ((slices.map fun object => object.handle.tokens).sum + held)) :
    (this.splitFull delimiter s).Sound contents post none held := by
  unfold ImStr.splitFull
  split
  · have nothing := ends [] (by simp)
    rw [List.map_nil, List.sum_nil, zero_add] at nothing
    exact Program.sound_pure.mpr nothing
  · refine .bind (View.sound_chars fun chars => ?_)
    refine .bind (sound_splitLoop fun slices last parts counts => ?_)
    by_cases final : last = sizeT (npos + if s = .drop ∨ s = .after then 1 else 0)
    · simp only [if_pos final]
      refine .bind (sound_addRefCnt counted (Program.sound_pure.mpr ?_))
      rw [← counts]
      exact ends slices parts
    · simp only [if_neg final]
      exact Program.sound_abort

section Zstr

variable {post : ImStr → Multiset Block → Prop}

theorem sound_unshare
    (ends : ∀ object, Fresh contents .imZstr object → post object (object.handle.tokens + held)) :
    this.unshare.Sound contents post none held :=
  .bind (View.sound_chars fun _ => sound_fromView ends)

theorem sound_isZeroTerminated {post : Bool → Multiset Block → Prop}
    (ends : ∀ terminated : Bool,
      (terminated = true → this.view.byteAt contents this.view.size = some 0) →
        post terminated held) :
    this.isZeroTerminated.Sound contents post none held := by
  refine .bind (View.sound_charAt fun char found => Program.sound_pure.mpr (ends _ ?_))
  intro terminated
  rw [found, of_decide_eq_true terminated]

end Zstr

end Sound

end MartCommon.Mba
