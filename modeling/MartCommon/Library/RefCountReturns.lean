import MartCommon.Library.RefCountMachine

namespace MartCommon.Library.RefCount

variable {Content Result Result' : Type}

namespace Program

/-- Each run of a program that ends meets the postcondition, and one that aborts meets `aborted`. The contents
name what each block was allocated with. -/
def Gives (aborted : Prop) (contents : Block → Option Content) (post : Result → Prop) :
    Program Content Result → Prop
  | .done result => post result
  | .abort => aborted
  | .alloc content next => ∀ block, contents block = some content → (next block).Gives aborted contents post
  | .fetchAdd _ _ next => next.Gives aborted contents post
  | .fetchSub _ next => ∀ old, (next old).Gives aborted contents post
  | .dealloc _ next => next.Gives aborted contents post
  | .read block next =>
      ∀ content, contents block = some content → (next content).Gives aborted contents post

/-- A program returns when none of its runs aborts and each one ends in a result that meets the
postcondition. -/
abbrev Returns (contents : Block → Option Content) (post : Result → Prop)
    (program : Program Content Result) : Prop :=
  program.Gives False contents post

/-- Each of its results meets the postcondition, where the program does not abort. -/
abbrev Ends (contents : Block → Option Content) (post : Result → Prop)
    (program : Program Content Result) : Prop :=
  program.Gives True contents post

variable {contents : Block → Option Content} {post : Result → Prop} {aborted : Prop}

@[simp] theorem gives_pure {result : Result} :
    (pure result : Program Content Result).Gives aborted contents post ↔ post result := .rfl

@[simp] theorem gives_abort : (.abort : Program Content Result).Gives aborted contents post ↔ aborted := .rfl

/-- The second program starts where the first one ends. -/
theorem gives_bind {program : Program Content Result'} {next : Result' → Program Content Result} :
    (program >>= next).Gives aborted contents post ↔
      program.Gives aborted contents fun result => (next result).Gives aborted contents post := by
  change (program.bind next).Gives aborted contents post ↔ _
  induction program with
  | done result => exact .rfl
  | abort => exact .rfl
  | alloc content middle ih => exact forall₂_congr fun block _ => ih block
  | fetchAdd block amount middle ih => exact ih
  | fetchSub block middle ih => exact forall_congr' ih
  | dealloc block middle ih => exact ih
  | read block middle ih => exact forall₂_congr fun content _ => ih content

/-- The cases of the rules, as rewrites. -/
theorem returns_pure {result : Result} :
    (pure result : Program Content Result).Returns contents post ↔ post result := .rfl

theorem returns_bind {program : Program Content Result'} {next : Result' → Program Content Result} :
    (program >>= next).Returns contents post ↔
      program.Returns contents fun result => (next result).Returns contents post :=
  gives_bind

theorem ends_bind {program : Program Content Result'} {next : Result' → Program Content Result} :
    (program >>= next).Ends contents post ↔
      program.Ends contents fun result => (next result).Ends contents post :=
  gives_bind

theorem Gives.weaken {aborted' : Prop} {post' : Result → Prop} {program : Program Content Result}
    (gives : program.Gives aborted contents post) (weaker : ∀ result, post result → post' result)
    (also : aborted → aborted') : program.Gives aborted' contents post' := by
  induction program with
  | done result => exact weaker result gives
  | abort => exact also gives
  | alloc content next ih => exact fun block stored => ih block (gives block stored)
  | fetchAdd block amount next ih => exact ih gives
  | fetchSub block next ih => exact fun old => ih old (gives old)
  | dealloc block next ih => exact ih gives
  | read block next ih => exact fun content stored => ih content (gives content stored)

theorem Gives.mono {post' : Result → Prop} {program : Program Content Result}
    (gives : program.Gives aborted contents post) (weaker : ∀ result, post result → post' result) :
    program.Gives aborted contents post' :=
  gives.weaken weaker id

theorem Returns.ends {program : Program Content Result} (returns : program.Returns contents post) :
    program.Ends contents post :=
  returns.weaken (fun _ => id) False.elim

theorem returns_congr {post' : Result → Prop} {program : Program Content Result}
    (same : ∀ result, post result ↔ post' result) :
    program.Returns contents post ↔ program.Returns contents post' :=
  ⟨fun returns => returns.mono fun result => (same result).mp,
    fun returns => returns.mono fun result => (same result).mpr⟩

/-- A stored block has one content only. -/
theorem returns_read {block : Block} {content : Content} {next : Content → Program Content Result}
    (stored : contents block = some content) :
    (Program.read block next).Returns contents post ↔ (next content).Returns contents post := by
  constructor
  · exact fun returns => returns content stored
  · intro returns other found
    rwa [← Option.some.inj (stored.symm.trans found)]

/-- A step of the machine leaves the same results. -/
theorem Gives.advance {program rest : Program Content Result} {memory after : Memory Content}
    {modulus : Nat} {held left : Multiset Block} (gives : program.Gives aborted contents post)
    (stepped : RefCount.advance memory modulus held program = some (after, left, rest))
    (kept : Extends after.content contents) : rest.Gives aborted contents post := by
  cases program with
  | done result => contradiction
  | abort => contradiction
  | alloc content next =>
      cases stepped
      exact gives _ (kept _ _ (Function.update_self _ _ _))
  | fetchAdd block amount next =>
      cases stepped
      exact gives
  | fetchSub block next =>
      cases stepped
      exact gives _
  | dealloc block next =>
      cases stepped
      exact gives
  | read block next =>
      simp only [RefCount.advance, Option.ite_none_right_eq_some, Option.map_eq_some_iff] at stepped
      obtain ⟨-, content, stored, same⟩ := stepped
      cases same
      exact gives content (kept block content stored)

/-- Two properties of the results hold together. -/
theorem Gives.and {post' : Result → Prop} {program : Program Content Result}
    (gives : program.Gives aborted contents post) (also : program.Gives aborted contents post') :
    program.Gives aborted contents fun result => post result ∧ post' result := by
  induction program with
  | done result => exact ⟨gives, also⟩
  | abort => exact gives
  | alloc content next ih => exact fun block stored => ih block (gives block stored) (also block stored)
  | fetchAdd block amount next ih => exact ih gives also
  | fetchSub block next ih => exact fun old => ih old (gives old) (also old)
  | dealloc block next ih => exact ih gives also
  | read block next ih =>
      exact fun content stored => ih content (gives content stored) (also content stored)

/-- A sound program ends as its postcondition says. -/
theorem Sound.ends {post : Result → Multiset Block → Prop} {pending : Option Block}
    {held : Multiset Block} {program : Program Content Result}
    (sound : program.Sound contents post pending held) :
    program.Ends contents fun result => ∃ left, post result left := by
  induction program generalizing pending held with
  | done result => exact ⟨held, sound.2⟩
  | abort => trivial
  | alloc content next ih => exact fun block stored => ih block (sound.2 block stored)
  | fetchAdd block amount next ih => exact ih sound.2.2
  | fetchSub block next ih => exact fun old => ih old (sound.2.2 old)
  | dealloc block next ih => exact ih sound.2
  | read block next ih => exact fun content stored => ih content (sound.2 content stored)

end Program

end MartCommon.Library.RefCount
