import Mathlib.Data.Multiset.Replicate
import Mathlib.Data.Multiset.AddSub

namespace MartCommon.Library.RefCount

/-- Each allocation has its own name. -/
abbrev Block := Nat

/-- A later content map keeps what the earlier one stored. -/
def Extends {Content : Type} (earlier later : Block → Option Content) : Prop :=
  ∀ block content, earlier block = some content → later block = some content

/-- A program allocates counted blocks, updates their counters atomically and reads their content. -/
inductive Program (Content Result : Type) where
  | done (result : Result)
  | abort
  | alloc (content : Content) (next : Block → Program Content Result)
  | fetchAdd (block : Block) (amount : Nat) (next : Program Content Result)
  | fetchSub (block : Block) (next : Nat → Program Content Result)
  | dealloc (block : Block) (next : Program Content Result)
  | read (block : Block) (next : Content → Program Content Result)

namespace Program

variable {Content Result Result' : Type}

def bind : Program Content Result → (Result → Program Content Result') → Program Content Result'
  | .done result, then_ => then_ result
  | .abort, _ => .abort
  | .alloc content next, then_ => .alloc content fun block => (next block).bind then_
  | .fetchAdd block amount next, then_ => .fetchAdd block amount (next.bind then_)
  | .fetchSub block next, then_ => .fetchSub block fun old => (next old).bind then_
  | .dealloc block next, then_ => .dealloc block (next.bind then_)
  | .read block next, then_ => .read block fun content => (next content).bind then_

instance : Monad (Program Content) where
  pure := .done
  bind := bind

/-- The block that the next instruction gives back. -/
def due : Program Content Result → Option Block
  | .dealloc block _ => some block
  | _ => none

/-- The block whose counter the next instruction touches. -/
def touched : Program Content Result → Option Block
  | .fetchAdd block _ _ => some block
  | .fetchSub block _ => some block
  | .dealloc block _ => some block
  | _ => none

/-- A program is sound when it updates only counters it has a counted handle on, gives a block back
right after it took the count from one to zero, and ends with the handles that the postcondition
accounts for. The contents name what each block was allocated with. -/
def Sound (contents : Block → Option Content) (post : Result → Multiset Block → Prop) :
    Option Block → Multiset Block → Program Content Result → Prop
  | pending, held, .done result => pending = none ∧ post result held
  | pending, _, .abort => pending = none
  | pending, held, .alloc content next =>
      pending = none ∧ ∀ block, contents block = some content →
        Sound contents post none (block ::ₘ held) (next block)
  | pending, held, .fetchAdd block amount next =>
      pending = none ∧ block ∈ held ∧
        Sound contents post none (held + Multiset.replicate amount block) next
  | pending, held, .fetchSub block next =>
      pending = none ∧ block ∈ held ∧ ∀ old,
        Sound contents post (if old = 1 then some block else none) (held.erase block) (next old)
  | pending, held, .dealloc block next =>
      pending = some block ∧ Sound contents post none held next
  | pending, held, .read block next =>
      pending = none ∧ ∀ content, contents block = some content →
        Sound contents post none held (next content)

variable {contents : Block → Option Content} {post : Result → Multiset Block → Prop}
  {held : Multiset Block}

@[simp] theorem sound_done {result : Result} :
    Sound contents post none held (.done result : Program Content Result) ↔ post result held := by
  simp [Sound]

@[simp] theorem sound_pure {result : Result} :
    Sound contents post none held (pure result : Program Content Result) ↔ post result held :=
  sound_done

@[simp] theorem sound_abort :
    Sound contents post none held (.abort : Program Content Result) := rfl

/-- A sound program owes exactly the block that its next instruction gives back. -/
theorem Sound.due_eq {pending : Option Block} {program : Program Content Result}
    (sound : Sound contents post pending held program) : program.due = pending := by
  cases program with
  | dealloc block next => exact sound.1.symm
  | abort => exact sound.symm
  | done result => exact sound.1.symm
  | alloc content next => exact sound.1.symm
  | fetchAdd block amount next => exact sound.1.symm
  | fetchSub block next => exact sound.1.symm
  | read block next => exact sound.1.symm

/-- A sound program stays sound for a weaker postcondition. -/
theorem Sound.mono {post' : Result → Multiset Block → Prop} {pending : Option Block}
    {program : Program Content Result} (sound : Sound contents post pending held program)
    (weaker : ∀ result left, post result left → post' result left) :
    Sound contents post' pending held program := by
  induction program generalizing pending held with
  | done result => exact ⟨sound.1, weaker _ _ sound.2⟩
  | abort => exact sound
  | alloc content next ih =>
      exact ⟨sound.1, fun block stored => ih block (sound.2 block stored)⟩
  | fetchAdd block amount next ih => exact ⟨sound.1, sound.2.1, ih sound.2.2⟩
  | fetchSub block next ih => exact ⟨sound.1, sound.2.1, fun old => ih old (sound.2.2 old)⟩
  | dealloc block next ih => exact ⟨sound.1, ih sound.2⟩
  | read block next ih =>
      exact ⟨sound.1, fun content stored => ih content (sound.2 content stored)⟩

/-- Two programs in a row are sound when the second one is sound after each end of the first. -/
theorem Sound.bind {Result' : Type} {program : Program Content Result'}
    {next : Result' → Program Content Result} {pending : Option Block}
    (sound : Sound contents (fun result left => Sound contents post none left (next result)) pending
      held program) : Sound contents post pending held (program >>= next) := by
  change Sound contents post pending held (program.bind next)
  induction program generalizing pending held with
  | done result =>
      obtain ⟨rfl, rest⟩ := sound
      exact rest
  | abort => exact sound
  | alloc content middle ih =>
      exact ⟨sound.1, fun block stored => ih block (sound.2 block stored)⟩
  | fetchAdd block amount middle ih => exact ⟨sound.1, sound.2.1, ih sound.2.2⟩
  | fetchSub block middle ih => exact ⟨sound.1, sound.2.1, fun old => ih old (sound.2.2 old)⟩
  | dealloc block middle ih => exact ⟨sound.1, ih sound.2⟩
  | read block middle ih =>
      exact ⟨sound.1, fun content stored => ih content (sound.2 content stored)⟩

end Program

/-- A handle points to a counted block or to nothing. -/
abbrev Handle := Option Block

/-- The counted handles that one handle stands for. -/
def Handle.tokens : Handle → Multiset Block
  | none => 0
  | some block => {block}

@[simp] theorem Handle.tokens_none : Handle.tokens none = 0 := rfl

@[simp] theorem Handle.tokens_some (block : Block) : Handle.tokens (some block) = {block} := rfl

/-- A handle on a block puts the block into the tokens. -/
theorem Handle.mem_tokens {handle : Handle} {block : Block} (points : handle = some block) :
    block ∈ handle.tokens := by
  simp [points]

/-- Only handles on a block put the block into the tokens. -/
theorem Handle.count_tokens (handle : Handle) (block : Block) :
    (handle.tokens).count block = if handle = some block then 1 else 0 := by
  cases handle with
  | none => simp
  | some own =>
      by_cases same : own = block
      · simp [same]
      · simp [same, Ne.symm same]

end MartCommon.Library.RefCount
