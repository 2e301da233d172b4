import MartCommon.Library.RefCountServing
import MartCommon.Mba.RefCounting

namespace MartCommon.Mba

open Library Library.RefCount

variable {Slot Thread : Type} [DecidableEq Slot] [DecidableEq Thread]

/-- A view is backed when it is null or when a character lies behind its last one, which
`is_zero_terminated` reads. -/
def Backed (contents : Block → Option Text) (object : ImStr) : Prop :=
  object.view.storage ≠ .null → ∃ char, object.view.byteAt contents object.view.size = some char

/-- The view of a trusted literal is a part of the characters in front of the zero that ends the
array. -/
def Operation.namesLiteral : Operation Slot → Bool
  | .trustMe _ array size => size < array.length && array.getLast? = some 0
  | _ => true

/-- The strings whose static views come from string literals. -/
abbrev literalStrings (Slot : Type) [DecidableEq Slot] :
    Interface Text ImStr (Operation Slot) Slot :=
  (strings Slot).restrict fun operation _ => operation.namesLiteral = true

section Backed

variable {contents : Block → Option Text} {object source : ImStr}

theorem Backed.mono {earlier later : Block → Option Text} (kept : Extends earlier later)
    (backed : Backed earlier object) : Backed later object := by
  intro shown
  obtain ⟨char, found⟩ := backed shown
  exact ⟨char, View.byteAt_mono kept found⟩

/-- In front of a byte of an object there are only bytes. -/
theorem View.byteAt_front {view part : View} {index last : Nat} {char : UInt8}
    (storage : part.storage = view.storage) (front : part.offset + index ≤ view.offset + last)
    (found : view.byteAt contents last = some char) : ∃ char, part.byteAt contents index = some char := by
  unfold View.byteAt at found ⊢
  rw [storage]
  cases same : view.storage with
  | null => simp [same] at found
  | literal bytes =>
      simp only [same, List.getElem?_eq_some_iff] at found
      obtain ⟨inside, -⟩ := found
      exact ⟨_, List.getElem?_eq_getElem (front.trans_lt inside)⟩
  | buffer block =>
      simp only [same, Option.bind_eq_some_iff, List.getElem?_eq_some_iff] at found
      obtain ⟨bytes, stored, inside, -⟩ := found
      simp only [stored, Option.bind_some]
      exact ⟨_, List.getElem?_eq_getElem (front.trans_lt inside)⟩

theorem Fresh.backed {kind : Kind} (fresh : Fresh contents kind object) : Backed contents object := by
  intro _
  cases fresh with
  | literal array size terminated => exact ⟨0, by simpa [View.byteAt] using terminated⟩
  | stored block chars stored => exact ⟨0, by simp [View.byteAt, stored]⟩

theorem Part.backed (part : Part source object) (backed : Backed contents source) :
    Backed contents object := by
  intro shown
  cases part with
  | empty => exact absurd rfl shown
  | slice view storage shorter inside =>
      obtain ⟨char, found⟩ := backed fun null => shown (storage.trans null)
      exact View.byteAt_front storage inside found

omit [DecidableEq Slot] in
theorem Origin.backed {operation : Operation Slot} {objects : List ImStr}
    (origin : Origin contents operation objects object) (names : operation.namesLiteral = true)
    (backed : ∀ source ∈ objects, Backed contents source) : Backed contents object := by
  cases origin with
  | fresh fresh => exact fresh.backed
  | @trusted kind array size named =>
      rw [named, Operation.namesLiteral, Bool.and_eq_true, decide_eq_true_eq] at names
      intro _
      refine ⟨_, (List.getElem?_eq_getElem ?_)⟩
      simpa using names.1
  | empty => exact fun shown => absurd rfl shown
  | part member part => exact part.backed (backed _ member)
  | @whole source member kind zero => exact backed source member
  | moved moved => exact fun shown => absurd rfl shown
  | @stripped source stripped => exact backed source (Operation.mem_of_stripped stripped)

theorem lawful_literalStrings : Lawful (literalStrings Slot) Backed :=
  lawful_of_origins Backed.mono fun names backed origin => origin.backed names backed

end Backed

/-- What a call of `create_zstr` needs: a view that is not null, a handle on the buffer that it points
into, and a size that the allocation of a copy takes where one is made. -/
structure Ready (contents : Block → Option Text) (object : ImStr) : Prop where
  shown : object.view.storage ≠ .null
  owned : ∀ block, object.view.storage = .buffer block → object.handle = some block
  short : object.view.byteAt contents object.view.size = some 0 ∨ object.view.size < 2 ^ 31

/-- An `im_zstr` with the characters that a view had before, and a zero behind them. -/
structure ZstrOf (before after : Block → Option Text) (view : View) (made : ImStr) : Prop where
  kind : made.kind = .imZstr
  size : made.view.size = view.size
  chars : ∀ index, index < view.size → ∃ char, view.byteAt before index = some char ∧
    made.view.byteAt after index = some char
  zero : made.view.byteAt after view.size = some 0

section Serves

variable {contents : Block → Option Text} {readable : Block → Prop} {held : Multiset Block}
  {view : View} {object : ImStr}

/-- A view with a character in it is read with the handle on its buffer. -/
theorem View.serves_bytes {post : Text → Multiset Block → Prop} {index : Nat} {char : UInt8}
    (found : view.byteAt contents index = some char)
    (counted : ∀ block, view.storage = .buffer block → block ∈ held ∧ readable block)
    (ends : ∀ bytes, (∀ index, view.byteAt contents index = bytes[view.offset + index]?) →
      post bytes held) :
    view.bytes.Serves contents readable post held := by
  unfold View.bytes
  unfold View.byteAt at found ends
  cases storage : view.storage with
  | null => simp [storage] at found
  | literal bytes =>
      simp only [storage] at ends
      exact Program.serves_pure.mpr (ends bytes fun _ => rfl)
  | buffer block =>
      simp only [storage, Option.bind_eq_some_iff] at found ends
      obtain ⟨bytes, stored, -⟩ := found
      refine ⟨counted block storage, bytes, stored, ends bytes fun index => ?_⟩
      rw [stored, Option.bind_some]

theorem View.serves_charAt {post : UInt8 → Multiset Block → Prop} {index : Nat} {char : UInt8}
    (found : view.byteAt contents index = some char)
    (counted : ∀ block, view.storage = .buffer block → block ∈ held ∧ readable block)
    (ends : post char held) : (view.charAt index).Serves contents readable post held := by
  rw [View.charAt, Program.serves_bind]
  apply View.serves_bytes found counted
  intro bytes named
  rw [← named, found]
  exact Program.serves_pure.mpr ends

/-- The characters are read with the one behind them in mind. -/
theorem View.serves_chars {post : Text → Multiset Block → Prop} {char : UInt8}
    (found : view.byteAt contents view.size = some char)
    (counted : ∀ block, view.storage = .buffer block → block ∈ held ∧ readable block)
    (ends : ∀ chars, chars.length = view.size →
      (∀ index, index < view.size → chars[index]? = view.byteAt contents index) → post chars held) :
    view.chars.Serves contents readable post held := by
  rw [View.chars, Program.serves_bind]
  apply View.serves_bytes found counted
  intro bytes named
  rw [named, List.getElem?_eq_some_iff] at found
  obtain ⟨inside, -⟩ := found
  apply Program.serves_pure.mpr
  apply ends
  · rw [List.length_take, List.length_drop]
    omega
  · intro index before
    rw [List.getElem?_take_of_lt before, List.getElem?_drop, named]

/-- The allocation takes the characters in front of a byte that is not zero. -/
theorem serves_unshare {post : ImStr → Multiset Block → Prop} {char : UInt8}
    (shown : object.view.storage ≠ .null)
    (found : object.view.byteAt contents object.view.size = some char)
    (counted : ∀ block, object.view.storage = .buffer block → block ∈ held ∧ readable block)
    (short : object.view.size < 2 ^ 31)
    (ends : ∀ made left, ZstrOf contents contents object.view made → post made left) :
    object.unshare.Serves contents readable post held := by
  rw [ImStr.unshare, Program.serves_bind]
  apply View.serves_chars found counted
  intro chars length same
  have small : chars.length < 2 ^ 31 := length ▸ short
  rw [if_neg shown, fromView, Option.getD_some, copyFrom, Program.serves_bind,
    AtomicRefCntBuffer.allocate, if_pos small]
  intro block stored
  apply ends
  have inside (index : Nat) : View.byteAt contents ⟨.buffer block, 0, chars.length⟩ index =
      (chars ++ [0])[index]? := by simp [View.byteAt, stored]
  refine ⟨rfl, length, fun index before => ?_, ?_⟩
  · have there : index < chars.length := length ▸ before
    refine ⟨chars[index], ?_, ?_⟩
    · rw [← same index before, List.getElem?_eq_getElem there]
    · exact (inside index).trans (by rw [List.getElem?_append_left there, List.getElem?_eq_getElem there])
  · rw [← length]
    exact (inside chars.length).trans List.getElem?_concat_length

/-- A view that ends with a zero already is the one that is asked for. -/
theorem ZstrOf.same {made : ImStr} (zero : object.view.byteAt contents object.view.size = some 0)
    (kind : made.kind = .imZstr) (view : made.view = object.view) :
    ZstrOf contents contents object.view made := by
  refine ⟨kind, by rw [view], fun index before => ?_, by rw [view, zero]⟩
  obtain ⟨char, found⟩ := View.byteAt_front rfl (Nat.add_le_add_left before.le _) zero
  exact ⟨char, found, by rw [view, found]⟩

/-- The decision for one of the two ways reads the byte behind the view. -/
theorem serves_decided {Result : Type} {post : Result → Multiset Block → Prop}
    {next : Bool → Prog Result} (backed : Backed contents object) (ready : Ready contents object)
    (counted : ∀ block, object.view.storage = .buffer block → block ∈ held ∧ readable block)
    (yes : object.view.byteAt contents object.view.size = some 0 →
      (next true).Serves contents readable post held)
    (no : ∀ char, object.view.byteAt contents object.view.size = some char →
      object.view.size < 2 ^ 31 → (next false).Serves contents readable post held) :
    (object.isZeroTerminated >>= next).Serves contents readable post held := by
  obtain ⟨char, found⟩ := backed ready.shown
  rw [Program.serves_bind, ImStr.isZeroTerminated, Program.serves_bind]
  apply View.serves_charAt found counted
  rw [Program.serves_pure]
  by_cases zero : char = 0
  · rw [decide_eq_true zero]
    exact yes (zero ▸ found)
  · rw [decide_eq_false zero]
    apply no char found
    rcases ready.short with terminated | short
    · exact absurd (Option.some.inj (found.symm.trans terminated)) zero
    · exact short

theorem serves_incref {handle : Handle} {post : Unit → Multiset Block → Prop}
    (ends : ∀ left, post () left) : (incref handle).Serves contents readable post held := by
  cases handle with
  | none => exact ends held
  | some block => exact ends _

theorem Ready.counted (ready : Ready contents object) (block : Block)
    (storage : object.view.storage = .buffer block) :
    block ∈ object.handle.tokens ∧ object.view.storage = .buffer block :=
  ⟨Handle.mem_tokens (ready.owned block storage), storage⟩

theorem serves_createZstr (backed : Backed contents object) (ready : Ready contents object) :
    object.createZstr.Serves contents (fun block => object.view.storage = .buffer block)
      (fun made _ => ZstrOf contents contents object.view made) object.handle.tokens := by
  apply serves_decided backed ready ready.counted
  · intro zero
    have made : ZstrOf contents contents object.view { object with kind := .imZstr } :=
      .same zero rfl rfl
    rw [if_pos rfl, copyConstruct, AtomicRefCntBuffer.copyConstruct, Program.serves_bind,
      Program.serves_bind]
    exact serves_incref fun left => made
  · intro char found short
    rw [if_neg Bool.false_ne_true]
    exact serves_unshare ready.shown found ready.counted short fun made _ zstr => zstr

theorem serves_createZstrMove (backed : Backed contents object) (ready : Ready contents object) :
    object.createZstrMove.Serves contents (fun block => object.view.storage = .buffer block)
      (fun made _ => ZstrOf contents contents object.view made.1 ∧
        (made.2 = object ∨ made.2 = movedFrom object)) object.handle.tokens := by
  apply serves_decided backed ready ready.counted
  · intro zero
    exact ⟨.same zero rfl rfl, .inr rfl⟩
  · intro char found short
    rw [if_neg Bool.false_ne_true, Program.serves_bind]
    exact serves_unshare ready.shown found ready.counted short fun made _ zstr => ⟨zstr, .inl rfl⟩

end Serves

section Lasts

variable {this : ImStr} {view : View}

theorem View.lasts_bytes : view.bytes.Lasts 1 := by
  unfold View.bytes
  cases view.storage with
  | null => trivial
  | literal bytes => trivial
  | buffer block => exact ⟨Nat.one_pos, fun _ => trivial⟩

theorem lasts_isZeroTerminated : this.isZeroTerminated.Lasts 1 := by
  apply Program.Lasts.bind 1 0
  · apply Program.Lasts.bind 1 0 View.lasts_bytes
    intro bytes
    split <;> trivial
  · exact fun _ => trivial

theorem lasts_copyFrom {kind : Kind} (text : Option Text) :
    (copyFrom { kind := kind } text).Lasts 1 := by
  cases text with
  | none => trivial
  | some chars =>
      rw [copyFrom, AtomicRefCntBuffer.allocate]
      by_cases small : chars.length < 2 ^ 31
      · rw [if_pos small]
        exact ⟨Nat.one_pos, fun _ => trivial⟩
      · rw [if_neg small]
        trivial

theorem lasts_unshare : this.unshare.Lasts 2 := by
  apply Program.Lasts.bind 1 1
  · exact Program.Lasts.bind 1 0 View.lasts_bytes fun _ => trivial
  · intro chars
    rw [fromView]
    exact lasts_copyFrom _

theorem lasts_incref {handle : Handle} : (incref handle).Lasts 1 := by
  cases handle with
  | none => trivial
  | some block => exact ⟨Nat.one_pos, trivial⟩

theorem lasts_createZstr : this.createZstr.Lasts 3 := by
  apply Program.Lasts.bind 1 2 lasts_isZeroTerminated
  intro terminated
  split
  · apply Program.Lasts.bind 2 0
    · apply Program.Lasts.bind 1 1
      · exact lasts_incref
      · exact fun _ => trivial
    · exact fun _ => trivial
  · exact lasts_unshare

theorem lasts_createZstrMove : this.createZstrMove.Lasts 3 := by
  apply Program.Lasts.bind 1 2 lasts_isZeroTerminated
  intro terminated
  split
  · trivial
  · exact Program.Lasts.bind 2 0 lasts_unshare fun _ => trivial

end Lasts

section Later

variable {earlier later : Block → Option Text} {object : ImStr}

theorem Ready.mono (kept : Extends earlier later) (ready : Ready earlier object) :
    Ready later object :=
  ⟨ready.shown, ready.owned, ready.short.imp_left (View.byteAt_mono kept)⟩

/-- The characters are those that the view had when it was backed. -/
theorem ZstrOf.since {made : ImStr} (kept : Extends earlier later) (backed : Backed earlier object)
    (shown : object.view.storage ≠ .null) (zstr : ZstrOf later later object.view made) :
    ZstrOf earlier later object.view made := by
  refine ⟨zstr.kind, zstr.size, fun index before => ?_, zstr.zero⟩
  obtain ⟨last, found⟩ := backed shown
  obtain ⟨char, here⟩ := View.byteAt_front rfl (Nat.add_le_add_left before.le _) found
  obtain ⟨same, there, shows⟩ := zstr.chars index before
  rw [View.byteAt_mono kept here] at there
  exact ⟨char, here, there ▸ shows⟩

end Later

/-- Both forms of `create_zstr`. -/
def zstrCall (moves : Bool) (slot : Slot) : Operation Slot :=
  if moves then .createZstrMove slot else .createZstr slot

/-- What a call makes and leaves: only the form `&&` empties its string. -/
def CreatesZstr (before after : Block → Option Text) (object : ImStr) (moves : Bool)
    (outcome : Outcome ImStr) : Prop :=
  ∃ made, outcome.created = [made] ∧ ZstrOf before after object.view made ∧
    (outcome.kept = [some object] ∨ moves = true ∧ outcome.kept = [some (movedFrom object)])

/-- The strings in runs that leave room in the counters. -/
abbrev literalSystem (Slot Thread : Type) [DecidableEq Slot] [DecidableEq Thread] :
    StepSystem (Strings Slot Thread) (Action (Operation Slot) Slot Thread) Unit :=
  (machine (2 ^ 32) (literalStrings Slot)).confine ((literalStrings Slot).Within (2 ^ 32))

/-- A call that has begun on a string that is ready is in service. -/
theorem inService_zstrCall {state begun : Strings Slot Thread} {thread : Thread} {slot : Slot}
    {object : ImStr} {moves : Bool} (named : Pool.get slot state.objects = some object)
    (backed : Backed state.memory.content object) (ready : Ready state.memory.content object)
    (begins : (machine (2 ^ 32) (literalStrings Slot)).step state
      (.begin thread (zstrCall moves slot)) = some ((), begun)) :
    InService (fun block => object.view.storage = .buffer block)
      (fun contents => CreatesZstr state.memory.content contents object moves) thread 3 begun := by
  cases moves with
  | false =>
      apply inService_begin named rfl rfl _ _ begins
      · exact Program.Lasts.bind 3 0 lasts_createZstr fun _ => trivial
      · intro contents kept
        rw [creates1, Program.serves_bind]
        apply (serves_createZstr (backed.mono kept) (ready.mono kept)).mono
        intro made _ zstr
        exact ⟨made, rfl, zstr.since kept backed ready.shown, .inl rfl⟩
  | true =>
      apply inService_begin named rfl rfl _ _ begins
      · exact Program.Lasts.bind 3 0 lasts_createZstrMove fun _ => trivial
      · intro contents kept
        rw [createsMoved, Program.serves_bind]
        apply (serves_createZstrMove (backed.mono kept) (ready.mono kept)).mono
        rintro ⟨made, remains⟩ _ ⟨zstr, rest⟩
        refine ⟨made, rfl, zstr.since kept backed ready.shown, ?_⟩
        rcases rest with same | emptied
        · exact .inl (congrArg (fun object => [some object]) same)
        · exact .inr ⟨rfl, congrArg (fun object => [some object]) emptied⟩

/-- In every run, `create_zstr` on a string that is ready reads only the object that the view points
into, which is there, and ends after at most three instructions of its own with a terminated string of
the same characters, whatever other threads do meanwhile. -/
theorem createZstr_served {history more : List Unit} {state begun later : Strings Slot Thread}
    (run : (literalSystem Slot Thread).Run {} history state) {thread : Thread} {slot : Slot}
    {object : ImStr} {moves : Bool} (named : Pool.get slot state.objects = some object)
    (ready : Ready state.memory.content object)
    (begins : (literalSystem Slot Thread).step state (.begin thread (zstrCall moves slot)) =
      some ((), begun))
    {actions : List (Action (Operation Slot) Slot Thread)}
    (goes : ((literalSystem Slot Thread).restrict fun _ action =>
      action.finishes thread = false).execute begun actions = some (more, later)) :
    ∃ job, Pool.get thread later.jobs = some job ∧
      (∀ block next, job.program = .read block next →
        object.view.storage = .buffer block ∧ later.memory.freed block = 0) ∧
      ((∃ outcome, job.program = .done outcome ∧
        CreatesZstr state.memory.content later.memory.content object moves outcome) ∨
        actions.countP (Action.ticks thread) < 3 ∧
          ∃ after, (machine (2 ^ 32) (literalStrings Slot)).step later (.tick thread) =
            some ((), after)) := by
  have accounts : Accounts (2 ^ 32) (literalStrings Slot) Backed state :=
    run_accounts (by decide) lawful_literalStrings run.unconfine
  obtain ⟨⟨_, rest⟩, taken, same⟩ := Option.map_eq_some_iff.mp named
  have backed : Backed state.memory.content object := by
    apply accounts.objects
    rw [← same]
    exact (Pool.values_take taken).mem_iff.mpr List.mem_cons_self
  have service := inService_zstrCall named backed ready (StepSystem.confine_step.mp begins).1
  exact run_served (by decide) (by decide) lawful_literalStrings (run.next begins) service goes

/-- A part of a text whose buffer has another string. -/
def zstrPartActions : List (Action (Operation Nat) Nat Nat) :=
  [.begin 0 (.fromView .imStr (some (ascii "ab"))), .tick 0, .finish 0 [0],
    .begin 0 (.substr 0 0 1), .tick 0, .finish 0 [1]]

/-- The other string ends while the part is copied. -/
def zstrMeanwhile : List (Action (Operation Nat) Nat Nat) :=
  [.begin 1 (.destroy 0), .tick 0, .tick 1, .finish 1 [], .tick 0, .tick 0]

theorem createZstr_served_part :
    ∃ history state, (literalSystem Nat Nat).Run {} history state ∧
      ∃ begun, (literalSystem Nat Nat).step state (.begin 0 (zstrCall false 1)) = some ((), begun) ∧
        ∃ more later, ((literalSystem Nat Nat).restrict fun _ action =>
          action.finishes 0 = false).execute begun zstrMeanwhile = some (more, later) ∧
          ∃ job outcome, Pool.get 0 later.jobs = some job ∧ job.program = .done outcome ∧
            CreatesZstr state.memory.content later.memory.content
              { kind := .imStr, view := ⟨.buffer 0, 0, 1⟩, handle := some 0 } false outcome := by
  have executed : (((literalSystem Nat Nat).execute {} zstrPartActions).bind fun named =>
      ((literalSystem Nat Nat).step named.2 (.begin 0 (zstrCall false 1))).bind fun begins =>
        (((literalSystem Nat Nat).restrict fun _ action =>
          action.finishes 0 = false).execute begins.2 zstrMeanwhile).map fun _ =>
            Pool.get 1 named.2.objects) =
      some (some { kind := .imStr, view := ⟨.buffer 0, 0, 1⟩, handle := some 0 }) := by
    decide +kernel
  simp only [Option.bind_eq_some_iff, Option.map_eq_some_iff] at executed
  obtain ⟨⟨history, state⟩, ran, ⟨_, begun⟩, begins, ⟨more, later⟩, goes, named⟩ := executed
  have run := StepSystem.run_of_execute zstrPartActions ran
  refine ⟨history, state, run, begun, begins, more, later, goes, ?_⟩
  have ready : Ready state.memory.content
      { kind := .imStr, view := ⟨.buffer 0, 0, 1⟩, handle := some 0 } :=
    ⟨Storage.noConfusion, fun block same => by cases same; rfl, .inr (by decide)⟩
  obtain ⟨job, found, -, ends⟩ := createZstr_served run named ready begins goes
  rcases ends with ⟨outcome, done, made⟩ | ⟨within, -⟩
  · exact ⟨job, outcome, found, done, made⟩
  · exact absurd within (by decide)

/-- The byte behind the view of a default constructed `im_str` is read through a null pointer. -/
theorem createZstr_null :
    ∃ history state, (literalSystem Nat Nat).Run {} history state ∧
      Pool.get 0 state.objects = some (defaultConstruct .imStr) ∧
      ∀ moves, ∃ begun, (literalSystem Nat Nat).step state (.begin 0 (zstrCall moves 0)) =
        some ((), begun) ∧
        (literalSystem Nat Nat).step begun (.tick 0) = none ∧
        ∀ job, Pool.get 0 begun.jobs = some job → job.program = .abort := by
  refine ⟨_, _, StepSystem.run_of_execute
    [.begin 0 (.defaultConstruct .imStr), .finish 0 [0]] rfl, rfl, fun moves => ?_⟩
  cases moves <;> exact ⟨_, rfl, rfl, fun job found => by cases found; rfl⟩

end MartCommon.Mba
