import MartCommon.Library.RefCountSafety

namespace MartCommon.Library.RefCount

variable {Content Object Operation Slot Thread Result Result' : Type}

namespace Program

/-- A program serves when it does not abort, when it reads readable blocks only, each of them while it
has a counted handle on it, and when each of its ends meets the postcondition. The contents name what
each block was allocated with. -/
def Serves (contents : Block → Option Content) (readable : Block → Prop)
    (post : Result → Multiset Block → Prop) : Multiset Block → Program Content Result → Prop
  | held, .done result => post result held
  | _, .abort => False
  | held, .alloc content next => ∀ block, contents block = some content →
      Serves contents readable post (block ::ₘ held) (next block)
  | held, .fetchAdd block amount next =>
      Serves contents readable post (held + Multiset.replicate amount block) next
  | held, .fetchSub block next => ∀ old,
      Serves contents readable post (held.erase block) (next old)
  | held, .dealloc _ next => Serves contents readable post held next
  | held, .read block next => (block ∈ held ∧ readable block) ∧
      ∃ content, contents block = some content ∧ Serves contents readable post held (next content)

variable {contents : Block → Option Content} {readable : Block → Prop}
  {post : Result → Multiset Block → Prop} {held : Multiset Block}

@[simp] theorem serves_pure {result : Result} :
    Serves contents readable post held (pure result : Program Content Result) ↔ post result held :=
  .rfl

/-- The second program serves what the first one leaves. -/
theorem serves_bind {program : Program Content Result'} {next : Result' → Program Content Result} :
    Serves contents readable post held (program >>= next) ↔
      Serves contents readable (fun result left => Serves contents readable post left (next result))
        held program := by
  change Serves contents readable post held (program.bind next) ↔ _
  induction program generalizing held with
  | done result => exact .rfl
  | abort => exact .rfl
  | alloc content middle ih => exact forall₂_congr fun block _ => ih block
  | fetchAdd block amount middle ih => exact ih
  | fetchSub block middle ih => exact forall_congr' fun old => ih old
  | dealloc block middle ih => exact ih
  | read block middle ih =>
      exact and_congr_right fun _ => exists_congr fun content => and_congr_right fun _ => ih content

theorem Serves.mono {post' : Result → Multiset Block → Prop} {program : Program Content Result}
    (serves : Serves contents readable post held program)
    (weaker : ∀ result left, post result left → post' result left) :
    Serves contents readable post' held program := by
  induction program generalizing held with
  | done result => exact weaker result held serves
  | abort => exact serves
  | alloc content next ih => exact fun block stored => ih block (serves block stored)
  | fetchAdd block amount next ih => exact ih serves
  | fetchSub block next ih => exact fun old => ih old (serves old)
  | dealloc block next ih => exact ih serves
  | read block next ih =>
      obtain ⟨may, content, stored, serves⟩ := serves
      exact ⟨may, content, stored, ih content serves⟩

/-- What is left of a program that serves goes on to serve. -/
theorem Serves.advance {program rest : Program Content Result} {memory after : Memory Content}
    {modulus : Nat} {left : Multiset Block} (serves : Serves contents readable post held program)
    (stepped : RefCount.advance memory modulus held program = some (after, left, rest))
    (kept : Extends after.content contents) : Serves contents readable post left rest := by
  cases program with
  | done result => contradiction
  | abort => contradiction
  | alloc content next =>
      cases stepped
      exact serves _ (kept _ _ (Function.update_self _ _ _))
  | fetchAdd block amount next =>
      cases stepped
      exact serves
  | fetchSub block next =>
      cases stepped
      exact serves _
  | dealloc block next =>
      cases stepped
      exact serves
  | read block next =>
      simp only [RefCount.advance, Option.ite_none_right_eq_some, Option.map_eq_some_iff] at stepped
      obtain ⟨-, content, stored, same⟩ := stepped
      cases same
      obtain ⟨-, other, named, serves⟩ := serves
      rwa [Option.some.inj ((kept block content stored).symm.trans named)]

/-- A program that serves has ended, or it can go on while its blocks are there. -/
theorem Serves.enabled {program : Program Content Result} {memory : Memory Content} (modulus : Nat)
    (serves : Serves memory.content readable post held program)
    (alive : ∀ block ∈ held, memory.freed block = 0) :
    (∃ result, program = .done result ∧ post result held) ∨
      ∃ after, RefCount.advance memory modulus held program = some after := by
  cases program with
  | done result => exact .inl ⟨result, rfl, serves⟩
  | abort => exact absurd serves not_false
  | alloc content next => exact .inr ⟨_, rfl⟩
  | fetchAdd block amount next => exact .inr ⟨_, rfl⟩
  | fetchSub block next => exact .inr ⟨_, rfl⟩
  | dealloc block next => exact .inr ⟨_, rfl⟩
  | read block next =>
      obtain ⟨⟨member, -⟩, content, stored, -⟩ := serves
      refine .inr ⟨(memory, held, next content), ?_⟩
      rw [RefCount.advance, if_pos (alive block member), stored, Option.map_some]

/-- A bound for the number of instructions that are left. -/
def Lasts : Program Content Result → Nat → Prop
  | .done _, _ => True
  | .abort, _ => True
  | .alloc _ next, left => 0 < left ∧ ∀ block, (next block).Lasts (left - 1)
  | .fetchAdd _ _ next, left => 0 < left ∧ next.Lasts (left - 1)
  | .fetchSub _ next, left => 0 < left ∧ ∀ old, (next old).Lasts (left - 1)
  | .dealloc _ next, left => 0 < left ∧ next.Lasts (left - 1)
  | .read _ next, left => 0 < left ∧ ∀ content, (next content).Lasts (left - 1)

theorem Lasts.mono {program : Program Content Result} {left more : Nat} (lasts : program.Lasts left)
    (enough : left ≤ more) : program.Lasts more := by
  induction program generalizing left more with
  | done result => trivial
  | abort => trivial
  | alloc content next ih =>
      exact ⟨lasts.1.trans_le enough, fun block => ih block (lasts.2 block) (by omega)⟩
  | fetchAdd block amount next ih => exact ⟨lasts.1.trans_le enough, ih lasts.2 (by omega)⟩
  | fetchSub block next ih =>
      exact ⟨lasts.1.trans_le enough, fun old => ih old (lasts.2 old) (by omega)⟩
  | dealloc block next ih => exact ⟨lasts.1.trans_le enough, ih lasts.2 (by omega)⟩
  | read block next ih =>
      exact ⟨lasts.1.trans_le enough, fun content => ih content (lasts.2 content) (by omega)⟩

theorem Lasts.bind {program : Program Content Result'} {next : Result' → Program Content Result}
    (left more : Nat) (lasts : program.Lasts left) (goes : ∀ result, (next result).Lasts more) :
    (program >>= next).Lasts (left + more) := by
  change (program.bind next).Lasts (left + more)
  induction program generalizing left with
  | done result => exact (goes result).mono (Nat.le_add_left _ _)
  | abort => trivial
  | alloc content middle ih =>
      refine ⟨Nat.add_pos_left lasts.1 _, fun block => ?_⟩
      rw [Nat.sub_add_comm lasts.1]
      exact ih block _ (lasts.2 block)
  | fetchAdd block amount middle ih =>
      refine ⟨Nat.add_pos_left lasts.1 _, ?_⟩
      rw [Nat.sub_add_comm lasts.1]
      exact ih _ lasts.2
  | fetchSub block middle ih =>
      refine ⟨Nat.add_pos_left lasts.1 _, fun old => ?_⟩
      rw [Nat.sub_add_comm lasts.1]
      exact ih old _ (lasts.2 old)
  | dealloc block middle ih =>
      refine ⟨Nat.add_pos_left lasts.1 _, ?_⟩
      rw [Nat.sub_add_comm lasts.1]
      exact ih _ lasts.2
  | read block middle ih =>
      refine ⟨Nat.add_pos_left lasts.1 _, fun content => ?_⟩
      rw [Nat.sub_add_comm lasts.1]
      exact ih content _ (lasts.2 content)

/-- Each instruction uses up one of those that are left. -/
theorem Lasts.advance {program rest : Program Content Result} {memory after : Memory Content}
    {modulus left : Nat} {held held' : Multiset Block} (lasts : program.Lasts left)
    (stepped : RefCount.advance memory modulus held program = some (after, held', rest)) :
    0 < left ∧ rest.Lasts (left - 1) := by
  cases program with
  | done result => contradiction
  | abort => contradiction
  | alloc content next =>
      cases stepped
      exact ⟨lasts.1, lasts.2 _⟩
  | fetchAdd block amount next =>
      cases stepped
      exact lasts
  | fetchSub block next =>
      cases stepped
      exact ⟨lasts.1, lasts.2 _⟩
  | dealloc block next =>
      cases stepped
      exact lasts
  | read block next =>
      simp only [RefCount.advance, Option.ite_none_right_eq_some, Option.map_eq_some_iff] at stepped
      obtain ⟨-, content, stored, same⟩ := stepped
      cases same
      exact ⟨lasts.1, lasts.2 _⟩

end Program

/-- The operation of a thread goes on to serve, whatever is allocated meanwhile, for at most so many
instructions of its own. -/
def InService [DecidableEq Thread] (readable : Block → Prop)
    (post : (Block → Option Content) → Outcome Object → Prop) (thread : Thread) (left : Nat)
    (state : State Content Object Slot Thread) : Prop :=
  ∃ job, Pool.get thread state.jobs = some job ∧ job.program.Lasts left ∧
    ∀ contents, Extends state.memory.content contents →
      job.program.Serves contents readable (fun outcome _ => post contents outcome) job.held

section Actions

variable [DecidableEq Thread] (thread : Thread)

/-- An instruction of a thread. -/
def Action.ticks : Action Operation Slot Thread → Bool
  | .tick other => other = thread
  | _ => false

/-- The end of the operation of a thread. -/
def Action.finishes : Action Operation Slot Thread → Bool
  | .finish other _ => other = thread
  | _ => false

end Actions

section Service

variable [DecidableEq Slot] [DecidableEq Thread] {modulus : Nat}
  {interface : Interface Content Object Operation Slot}
  {valid : (Block → Option Content) → Object → Prop} {readable : Block → Prop}
  {post : (Block → Option Content) → Outcome Object → Prop} {thread : Thread} {left : Nat}
  {before after state later : State Content Object Slot Thread}

/-- The end of an operation leaves the memory and the other operations. -/
theorem machine_finish {other : Thread} {targets : List Slot} {event : Unit}
    (stepped : (machine modulus interface).step before (.finish other targets) = some (event, after)) :
    after.memory = before.memory ∧
      ∃ ended, Pool.take other before.jobs = some (ended, after.jobs) := by
  simp only [machine, Option.bind_eq_some_iff] at stepped
  obtain ⟨⟨ended, rest⟩, taken, stepped⟩ := stepped
  split at stepped
  · rw [Option.ite_none_right_eq_some] at stepped
    obtain ⟨-, rfl⟩ := Prod.mk.inj (Option.some.inj stepped.2)
    exact ⟨rfl, ended, taken⟩
  · contradiction

/-- An operation with one source is in service from its beginning. -/
theorem inService_begin {operation : Operation} {slot : Slot} {object : Object}
    {program : Program Content (Outcome Object)} {event : Unit}
    (named : Pool.get slot before.objects = some object)
    (single : interface.sources operation = [slot])
    (body : interface.body operation [object] = some program) (lasts : program.Lasts left)
    (serves : ∀ contents, Extends before.memory.content contents →
      program.Serves contents readable (fun outcome _ => post contents outcome)
        (interface.handles object))
    (begins : (machine modulus interface).step before (.begin thread operation) =
      some (event, after)) :
    InService readable post thread left after := by
  simp only [machine, Option.ite_none_left_eq_some, Option.bind_eq_some_iff,
    Option.map_eq_some_iff, Prod.mk.injEq] at begins
  obtain ⟨-, ⟨objects, rest⟩, taken, begun, same, -, rfl⟩ := begins
  obtain rfl := Pool.takeAll_one named (single ▸ taken)
  obtain rfl : program = begun := Option.some.inj (body.symm.trans same)
  have held : ([object].map interface.handles).sum = interface.handles object := add_zero _
  exact ⟨_, Pool.get_cons_self _ _ _, lasts, fun contents kept => held.symm ▸ serves contents kept⟩

/-- No step ends the service but the end of the operation itself. -/
theorem InService.step (service : InService readable post thread left before)
    (accounts : Accounts modulus interface valid before)
    {action : Action Operation Slot Thread} {event : Unit}
    (stepped : (machine modulus interface).step before action = some (event, after))
    (goes : action.finishes thread = false) :
    ∃ now, InService readable post thread now after ∧
      now + (if action.ticks thread then 1 else 0) = left := by
  obtain ⟨job, found, lasts, serves⟩ := service
  cases action with
  | begin other operation =>
      simp only [machine, Option.ite_none_left_eq_some, Option.bind_eq_some_iff,
        Option.map_eq_some_iff, Prod.mk.injEq] at stepped
      obtain ⟨idle, taken, -, program, -, -, rfl⟩ := stepped
      have apart : other ≠ thread := by
        rintro rfl
        exact idle (Pool.mem_keys found)
      exact ⟨left, ⟨job, (Pool.get_cons_of_ne apart _ _).trans found, lasts, serves⟩, rfl⟩
  | tick other =>
      simp only [machine, Option.bind_eq_some_iff, Option.map_eq_some_iff,
        Prod.mk.injEq] at stepped
      obtain ⟨⟨ticked, rest⟩, taken, ⟨memory, held, program⟩, advanced, -, rfl⟩ := stepped
      have extended := accounts.ledger.extends advanced
      have kept : ∀ contents, Extends memory.content contents →
          Extends before.memory.content contents :=
        fun contents later block content stored => later block content (extended block content stored)
      by_cases same : other = thread
      · subst same
        obtain ⟨⟨taking, others⟩, again, named⟩ := Option.map_eq_some_iff.mp found
        obtain rfl : taking = job := named
        rw [taken] at again
        cases again
        obtain ⟨some_left, lasts⟩ := lasts.advance advanced
        refine ⟨left - 1, ⟨_, Pool.get_cons_self _ _ _, lasts, fun contents later =>
          (serves contents (kept contents later)).advance advanced later⟩, ?_⟩
        rw [Action.ticks, decide_eq_true rfl]
        exact Nat.sub_add_cancel some_left
      · refine ⟨left, ⟨job, ?_, lasts, fun contents later => serves contents (kept contents later)⟩, ?_⟩
        · rw [Pool.get_cons_of_ne same, Pool.get_of_take same taken, found]
        · rw [Action.ticks, decide_eq_false same]
          rfl
  | finish other targets =>
      have apart : other ≠ thread := of_decide_eq_false goes
      obtain ⟨memory, ended, taken⟩ := machine_finish stepped
      exact ⟨left, ⟨job, (Pool.get_of_take apart taken).trans found, lasts, memory ▸ serves⟩, rfl⟩

/-- Where the blocks with a handle are there, an operation in service is not stuck. -/
theorem InService.enabled (service : InService readable post thread left state)
    (counted : Counted interface state) :
    ∃ job, Pool.get thread state.jobs = some job ∧
      (∀ block next, job.program = .read block next → readable block ∧ state.memory.freed block = 0) ∧
      ((∃ outcome, job.program = .done outcome ∧ post state.memory.content outcome) ∨
        0 < left ∧ ∃ after, (machine modulus interface).step state (.tick thread) =
          some ((), after)) := by
  obtain ⟨job, found, lasts, serves⟩ := service
  have serves := serves _ fun _ _ stored => stored
  obtain ⟨⟨taking, rest⟩, taken, same⟩ := Option.map_eq_some_iff.mp found
  obtain rfl : taking = job := same
  have alive : ∀ block ∈ taking.held, state.memory.freed block = 0 := by
    intro block member
    have once := counted.once block
    by_contra freed
    apply (counted.guarded block (by omega)).1
    exact Multiset.mem_add.mpr (.inr (mem_sum_map.mpr
      ⟨taking, (Pool.values_take taken).mem_iff.mpr List.mem_cons_self, member⟩))
  refine ⟨taking, found, fun block next reading => ?_, ?_⟩
  · rw [reading] at serves
    exact ⟨serves.1.2, alive block serves.1.1⟩
  · rcases serves.enabled modulus alive with ended | ⟨⟨memory, held, program⟩, advanced⟩
    · exact .inl ended
    · refine .inr ⟨(lasts.advance advanced).1, { state with
        memory := memory
        jobs := (thread, ⟨taking.names, held, program⟩) :: rest }, ?_⟩
      simp only [machine, taken, Option.bind_some, advanced, Option.map_some]

/-- In a bounded run an operation that was in service once is never stuck until it ends, and it ends
after the instructions that were left. -/
theorem run_served {limit : Nat} (large : 1 < modulus) (fits : limit ≤ modulus)
    (lawful : Lawful interface valid) {history more : List Unit}
    (run : ((machine modulus interface).confine (interface.Within limit)).Run {} history state)
    (service : InService readable post thread left state)
    {actions : List (Action Operation Slot Thread)}
    (goes : (((machine modulus interface).confine (interface.Within limit)).restrict
      fun _ action => action.finishes thread = false).execute state actions = some (more, later)) :
    ∃ job, Pool.get thread later.jobs = some job ∧
      (∀ block next, job.program = .read block next → readable block ∧ later.memory.freed block = 0) ∧
      ((∃ outcome, job.program = .done outcome ∧ post later.memory.content outcome) ∨
        actions.countP (Action.ticks thread) < left ∧
          ∃ after, (machine modulus interface).step later (.tick thread) = some ((), after)) := by
  induction actions generalizing history state left more with
  | nil =>
      obtain ⟨-, rfl⟩ := Prod.mk.inj (Option.some.inj goes)
      simpa using service.enabled (run_counted large fits lawful run)
  | cons action rest ih =>
      rw [StepSystem.execute] at goes
      split at goes
      · contradiction
      · rename_i event middle stepped
        obtain ⟨allowed, stepped⟩ := StepSystem.restrict_step.mp stepped
        have accounts := run_accounts large lawful run.unconfine
        obtain ⟨now, service, used⟩ := service.step accounts (StepSystem.confine_step.mp stepped).1
          allowed
        split at goes
        · contradiction
        · rename_i events final continued
          obtain ⟨-, rfl⟩ := Prod.mk.inj (Option.some.inj goes)
          obtain ⟨job, found, reads, fate⟩ := ih (run.next stepped) service continued
          refine ⟨job, found, reads, ?_⟩
          rcases fate with ended | goes
          · exact .inl ended
          · refine .inr ⟨?_, goes.2⟩
            have within := goes.1
            rw [List.countP_cons]
            omega

end Service

end MartCommon.Library.RefCount
