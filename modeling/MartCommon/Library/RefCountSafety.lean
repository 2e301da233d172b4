import MartCommon.Library.RefCountLedger
import Mathlib.Data.List.ReduceOption

namespace MartCommon.Library.RefCount

variable {Content Object Operation Slot Thread : Type}

/-- The counted handles of several objects. -/
def Interface.tokens (interface : Interface Content Object Operation Slot) (objects : List Object) :
    Multiset Block := (objects.map interface.handles).sum

/-- The counted handles of the objects that no operation uses. -/
def Interface.liveTokens (interface : Interface Content Object Operation Slot)
    (state : State Content Object Slot Thread) : Multiset Block :=
  interface.tokens (Pool.values state.objects)

/-- The counted handles that the operations in progress have in hand. -/
def State.heldTokens (state : State Content Object Slot Thread) : Multiset Block :=
  ((Pool.values state.jobs).map Job.held).sum

/-- All counted handles. -/
def Interface.tokensOf (interface : Interface Content Object Operation Slot)
    (state : State Content Object Slot Thread) : Multiset Block :=
  interface.liveTokens state + state.heldTokens

/-- The blocks that the operations in progress give back with their next instruction. -/
def State.dues (state : State Content Object Slot Thread) : Multiset Block :=
  ((Pool.values state.jobs).map fun job => Handle.tokens job.program.due).sum

/-- An operation delivers when each of its sources has its rest, the handles in hand are those of the
objects that stay, and these objects are valid. -/
structure Delivers (interface : Interface Content Object Operation Slot)
    (valid : (Block → Option Content) → Object → Prop) (contents : Block → Option Content)
    (size : Nat) (outcome : Outcome Object) (held : Multiset Block) : Prop where
  kept : outcome.kept.length = size
  handles : held = interface.tokens outcome.objects
  objects : ∀ object ∈ outcome.objects, valid contents object

/-- An interface is lawful when each operation on valid objects has a sound program that delivers. -/
structure Lawful (interface : Interface Content Object Operation Slot)
    (valid : (Block → Option Content) → Object → Prop) : Prop where
  monotone : ∀ {earlier later object}, Extends earlier later → valid earlier object →
    valid later object
  sound : ∀ {operation objects program contents}, interface.body operation objects = some program →
    objects.length = (interface.sources operation).length →
    (∀ object ∈ objects, valid contents object) →
    program.Sound contents
      (Delivers interface valid contents (interface.sources operation).length) none
      (interface.tokens objects)

/-- The accounts of a state: the ledger of its memory, a sound rest of each operation in progress and
valid objects. -/
structure Accounts (modulus : Nat) (interface : Interface Content Object Operation Slot)
    (valid : (Block → Option Content) → Object → Prop)
    (state : State Content Object Slot Thread) : Prop where
  ledger : Ledger modulus state.memory (interface.tokensOf state) state.dues
  jobs : ∀ job ∈ Pool.values state.jobs, ∀ contents, Extends state.memory.content contents →
    job.program.Sound contents (Delivers interface valid contents job.names.length)
      job.program.due job.held
  objects : ∀ object ∈ Pool.values state.objects, valid state.memory.content object

section Perm

variable {interface : Interface Content Object Operation Slot}

@[simp] theorem tokens_append (first second : List Object) :
    interface.tokens (first ++ second) = interface.tokens first + interface.tokens second := by
  simp [Interface.tokens]

/-- The order of the objects does not matter to their handles. -/
theorem tokens_perm {first second : List Object} (perm : first.Perm second) :
    interface.tokens first = interface.tokens second :=
  (perm.map _).sum_eq

end Perm

/-- A block is in a sum of handles when it is in one of them. -/
theorem mem_sum_map {Value : Type} {values : List Value} {handles : Value → Multiset Block}
    {block : Block} :
    block ∈ (values.map handles).sum ↔ ∃ value ∈ values, block ∈ handles value := by
  induction values with
  | nil => simp
  | cons value rest ih => simp [ih]

/-- The objects that stay alive come back with their values. -/
theorem values_restore {names : List Slot} {kept : List (Option Object)}
    (matched : kept.length = names.length) :
    Pool.values (restore names kept) = kept.reduceOption := by
  induction names generalizing kept with
  | nil =>
      rw [List.length_nil, List.length_eq_zero_iff] at matched
      subst matched
      rfl
  | cons name names ih =>
      cases kept with
      | nil => contradiction
      | cons entry rest =>
          have shorter : rest.length = names.length := by simpa using matched
          have tail := ih shorter
          simp only [restore, Pool.values] at tail ⊢
          cases entry with
          | none => simpa [List.reduceOption_cons_of_none] using tail
          | some object => simpa [List.reduceOption_cons_of_some] using tail

/-- The values after an operation are those of its outcome and those it did not use. -/
theorem values_finish {names targets : List Slot} {outcome : Outcome Object}
    {objects : Pool Slot Object} (kept : outcome.kept.length = names.length)
    (named : targets.length = outcome.created.length) :
    Pool.values (restore names outcome.kept ++ targets.zip outcome.created ++ objects) =
      outcome.objects ++ Pool.values objects := by
  rw [Pool.values_append, Pool.values_append, values_restore kept, Pool.values_zip named]
  rfl

section Steps

variable [DecidableEq Slot] [DecidableEq Thread] {modulus : Nat}
  {interface : Interface Content Object Operation Slot}
  {valid : (Block → Option Content) → Object → Prop}
  {before after : State Content Object Slot Thread}

/-- What one step does: an operation begins, it updates the memory, or it ends. -/
inductive Stepped (modulus : Nat) (interface : Interface Content Object Operation Slot)
    (before : State Content Object Slot Thread) : State Content Object Slot Thread → Prop where
  | begin (thread : Thread) {operation : Operation} {objects : List Object} {rest : Pool Slot Object}
      {program : Program Content (Outcome Object)}
      (taken : Pool.takeAll (interface.sources operation) before.objects = some (objects, rest))
      (body : interface.body operation objects = some program) :
      Stepped modulus interface before { before with
        objects := rest
        jobs := (thread, ⟨interface.sources operation, interface.tokens objects, program⟩) ::
          before.jobs }
  | tick {thread : Thread} {job : Job Content Object Slot} {rest : Pool Thread (Job Content Object Slot)}
      {memory : Memory Content} {held : Multiset Block} {program : Program Content (Outcome Object)}
      (taken : Pool.take thread before.jobs = some (job, rest))
      (advanced : advance before.memory modulus job.held job.program = some (memory, held, program)) :
      Stepped modulus interface before { before with
        memory := memory
        jobs := (thread, ⟨job.names, held, program⟩) :: rest }
  | finish {thread : Thread} {job : Job Content Object Slot}
      {rest : Pool Thread (Job Content Object Slot)} {outcome : Outcome Object} {targets : List Slot}
      (taken : Pool.take thread before.jobs = some (job, rest))
      (ended : job.program = .done outcome) (named : targets.length = outcome.created.length) :
      Stepped modulus interface before { before with
        objects := restore job.names outcome.kept ++ targets.zip outcome.created ++ before.objects
        jobs := rest }

/-- Each accepted action is one of the three kinds of steps. -/
theorem machine_stepped {action : Action Operation Slot Thread} {event : Unit}
    (stepped : (machine modulus interface).step before action = some (event, after)) :
    Stepped modulus interface before after := by
  cases action with
  | begin thread operation =>
      simp only [machine, Option.ite_none_left_eq_some, Option.bind_eq_some_iff,
        Option.map_eq_some_iff, Prod.mk.injEq] at stepped
      obtain ⟨-, ⟨objects, rest⟩, taken, program, body, -, rfl⟩ := stepped
      exact .begin thread taken body
  | tick thread =>
      simp only [machine, Option.bind_eq_some_iff, Option.map_eq_some_iff,
        Prod.mk.injEq] at stepped
      obtain ⟨⟨job, rest⟩, taken, ⟨memory, held, program⟩, advanced, -, rfl⟩ := stepped
      exact .tick taken advanced
  | finish thread targets =>
      simp only [machine, Option.bind_eq_some_iff] at stepped
      obtain ⟨⟨job, rest⟩, taken, ended⟩ := stepped
      cases program : job.program with
      | done outcome =>
          simp only [program, Option.ite_none_right_eq_some, Option.some.injEq,
            Prod.mk.injEq] at ended
          obtain ⟨⟨named, -⟩, -, rfl⟩ := ended
          exact .finish taken program named
      | abort => simp [program] at ended
      | alloc content next => simp [program] at ended
      | fetchAdd block amount next => simp [program] at ended
      | fetchSub block next => simp [program] at ended
      | dealloc block next => simp [program] at ended
      | read block next => simp [program] at ended

omit [DecidableEq Slot] in
/-- The handles in hand are those of one operation and those of the others. -/
theorem heldTokens_take {thread : Thread} {job : Job Content Object Slot}
    {rest : Pool Thread (Job Content Object Slot)}
    (taken : Pool.take thread before.jobs = some (job, rest)) :
    before.heldTokens = job.held + ((Pool.values rest).map Job.held).sum :=
  ((Pool.values_take taken).map Job.held).sum_eq

omit [DecidableEq Slot] in
/-- The blocks that are due are those of one operation and those of the others. -/
theorem dues_take {thread : Thread} {job : Job Content Object Slot}
    {rest : Pool Thread (Job Content Object Slot)}
    (taken : Pool.take thread before.jobs = some (job, rest)) :
    before.dues = Handle.tokens job.program.due +
      ((Pool.values rest).map fun other => Handle.tokens other.program.due).sum :=
  ((Pool.values_take taken).map fun other : Job Content Object Slot =>
    Handle.tokens other.program.due).sum_eq

/-- A step either keeps the memory, the handles and the dues, or it is one booked update. -/
inductive Books (modulus : Nat) (interface : Interface Content Object Operation Slot)
    (before after : State Content Object Slot Thread) : Prop where
  | kept (memory : after.memory = before.memory)
      (tokens : interface.tokensOf after = interface.tokensOf before)
      (dues : after.dues = before.dues)
  | booked {held held' rest dues : Multiset Block} {due due' : Option Block}
      (tokens : interface.tokensOf before = held + rest)
      (tokens' : interface.tokensOf after = held' + rest)
      (owed : before.dues = Handle.tokens due + dues)
      (owed' : after.dues = Handle.tokens due' + dues)
      (update : Booked modulus before.memory held due after.memory held' due')

omit [DecidableEq Thread] in
/-- A program that has just begun is sound for every later content. -/
theorem Accounts.started (accounts : Accounts modulus interface valid before)
    (lawful : Lawful interface valid) {operation : Operation} {objects : List Object}
    {rest : Pool Slot Object} {program : Program Content (Outcome Object)}
    (taken : Pool.takeAll (interface.sources operation) before.objects = some (objects, rest))
    (body : interface.body operation objects = some program) {contents : Block → Option Content}
    (later : Extends before.memory.content contents) :
    program.Sound contents (Delivers interface valid contents (interface.sources operation).length)
      none (interface.tokens objects) := by
  obtain ⟨perm, length⟩ := Pool.values_takeAll taken
  apply lawful.sound body length
  intro object member
  apply lawful.monotone later
  exact accounts.objects object (perm.mem_iff.mpr (List.mem_append_left _ member))

omit [DecidableEq Slot] in
/-- An ended program delivers. -/
theorem Accounts.ended (accounts : Accounts modulus interface valid before) {thread : Thread}
    {job : Job Content Object Slot} {rest : Pool Thread (Job Content Object Slot)}
    {outcome : Outcome Object} (taken : Pool.take thread before.jobs = some (job, rest))
    (ended : job.program = .done outcome) :
    Delivers interface valid before.memory.content job.names.length outcome job.held := by
  have member : job ∈ Pool.values before.jobs :=
    (Pool.values_take taken).mem_iff.mpr List.mem_cons_self
  have sound := accounts.jobs job member _ fun _ _ stored => stored
  rw [ended] at sound
  exact sound.2

/-- Each step from an accounted state is in the books. -/
theorem Accounts.books (accounts : Accounts modulus interface valid before)
    (lawful : Lawful interface valid) (stepped : Stepped modulus interface before after) :
    Books modulus interface before after := by
  cases stepped with
  | @begin thread operation objects rest program taken body =>
      have silent := (accounts.started lawful taken body fun _ _ stored => stored).due_eq
      refine .kept rfl ?_ ?_
      · have live : interface.tokens (Pool.values before.objects) = _ :=
          tokens_perm (Pool.values_takeAll taken).1
        simp only [Interface.tokensOf, Interface.liveTokens, State.heldTokens, Pool.values_cons,
          List.map_cons, List.sum_cons, live, tokens_append]
        rw [add_left_comm, add_assoc]
      · simp [State.dues, silent]
  | @tick thread job rest memory held program taken advanced =>
      have member : job ∈ Pool.values before.jobs :=
        (Pool.values_take taken).mem_iff.mpr List.mem_cons_self
      have kept := accounts.ledger.extends advanced
      have moved := (accounts.jobs job member memory.content kept).advance advanced
        fun _ _ stored => stored
      have tokens : interface.tokensOf before =
          job.held + (interface.liveTokens before + ((Pool.values rest).map Job.held).sum) := by
        rw [Interface.tokensOf, heldTokens_take taken, add_left_comm]
      refine .booked tokens ?_ (dues_take taken) (by simp [State.dues]) moved.2
      · simp only [Interface.tokensOf, State.heldTokens, Pool.values_cons, List.map_cons,
          List.sum_cons, Interface.liveTokens]
        rw [add_left_comm]
  | @finish thread job rest outcome targets taken ended named =>
      have delivers := accounts.ended taken ended
      refine .kept rfl ?_ ?_
      · rw [Interface.tokensOf, Interface.tokensOf, heldTokens_take taken, delivers.handles]
        simp only [Interface.liveTokens, values_finish delivers.kept named, tokens_append,
          State.heldTokens]
        rw [add_left_comm, add_assoc]
      · rw [dues_take taken, ended]
        simp [State.dues, Program.due]

/-- An accounted state stays accounted. -/
theorem Accounts.step (accounts : Accounts modulus interface valid before) (large : 1 < modulus)
    (lawful : Lawful interface valid) (stepped : Stepped modulus interface before after) :
    Accounts modulus interface valid after := by
  constructor
  · cases accounts.books lawful stepped with
    | kept memory tokens dues =>
        rw [memory, tokens, dues]
        exact accounts.ledger
    | booked tokens tokens' owed owed' update =>
        have ledger := accounts.ledger
        rw [tokens, owed] at ledger
        rw [tokens', owed']
        exact ledger.booked large update
  · cases stepped with
    | begin thread taken body =>
        intro job member contents later
        rcases List.mem_cons.mp member with rfl | member
        · have sound := accounts.started lawful taken body later
          simp only [sound.due_eq]
          exact sound
        · exact accounts.jobs job member contents later
    | @tick thread job rest memory held program taken advanced =>
        intro other member contents later
        have kept := accounts.ledger.extends advanced
        have before_later : Extends before.memory.content contents :=
          fun block content stored => later block content (kept block content stored)
        rcases List.mem_cons.mp member with rfl | member
        · have sound := accounts.jobs job
            ((Pool.values_take taken).mem_iff.mpr List.mem_cons_self) contents before_later
          exact (sound.advance advanced later).1
        · exact accounts.jobs other
            ((Pool.values_take taken).mem_iff.mpr (List.mem_cons_of_mem _ member)) contents
            before_later
    | finish taken ended named =>
        intro job member contents later
        exact accounts.jobs job
          ((Pool.values_take taken).mem_iff.mpr (List.mem_cons_of_mem _ member)) contents later
  · cases stepped with
    | begin thread taken body =>
        intro object member
        exact accounts.objects object ((Pool.values_takeAll taken).1.mem_iff.mpr
          (List.mem_append_right _ member))
    | tick taken advanced =>
        intro object member
        exact lawful.monotone (accounts.ledger.extends advanced) (accounts.objects object member)
    | finish taken ended named =>
        have delivers := accounts.ended taken ended
        intro object member
        rw [values_finish delivers.kept named, List.mem_append] at member
        exact member.elim (delivers.objects object) (accounts.objects object)

/-- Each block keeps one fate while no counter wraps around. -/
theorem Accounts.exclusive (accounts : Accounts modulus interface valid before)
    (lawful : Lawful interface valid)
    (exclusive : Exclusive before.memory (interface.tokensOf before) before.dues)
    (bounded : ∀ block, (interface.tokensOf before).count block < modulus)
    (stepped : Stepped modulus interface before after) :
    Exclusive after.memory (interface.tokensOf after) after.dues := by
  cases accounts.books lawful stepped with
  | kept memory tokens dues =>
      rw [memory, tokens, dues]
      exact exclusive
  | booked tokens tokens' owed owed' update =>
      have ledger := accounts.ledger
      rw [tokens] at bounded
      rw [tokens, owed] at ledger exclusive
      rw [tokens', owed']
      exact exclusive.booked ledger bounded update

omit [DecidableEq Slot] [DecidableEq Thread] in
/-- The empty state is accounted. -/
theorem accounts_initial : Accounts modulus interface valid ({} : State Content Object Slot Thread) where
  ledger := ⟨fun block _ => ⟨rfl, by simp [Interface.tokensOf, Interface.liveTokens,
    Interface.tokens, State.heldTokens, Pool.values], by simp [State.dues, Pool.values], rfl⟩,
    fun block within => absurd within (Nat.not_lt_zero block)⟩
  jobs job member := by simp [Pool.values] at member
  objects object member := by simp [Pool.values] at member

/-- Every run of a lawful interface stays accounted. -/
theorem run_accounts (large : 1 < modulus) (lawful : Lawful interface valid) {history : List Unit}
    {state : State Content Object Slot Thread}
    (run : (machine modulus interface).Run {} history state) :
    Accounts modulus interface valid state := by
  apply run.invariant fun _ state => Accounts modulus interface valid state
  · exact accounts_initial
  · intro history before action event after accounts stepped
    exact accounts.step large lawful (machine_stepped stepped)

/-- Each block has fewer counted handles than the limit. -/
def Interface.Within (interface : Interface Content Object Operation Slot) (limit : Nat)
    (state : State Content Object Slot Thread) : Prop :=
  ∀ block ∈ interface.tokensOf state, (interface.tokensOf state).count block < limit

instance (limit : Nat) (state : State Content Object Slot Thread) :
    Decidable (interface.Within limit state) :=
  inferInstanceAs (Decidable (∀ block ∈ interface.tokensOf state, _))

/-- What the counters mean to the holders of the handles. In a state without operations in progress
each counter is the number of live handles, and a block was given back exactly when it has none. In
every state a block was given back at most once, a block that was given back has no handle and no
operation goes on to touch its counter, and a block without a handle was given back or is given back by
the next instruction of the operation that took away the last one. -/
structure Counted (interface : Interface Content Object Operation Slot)
    (state : State Content Object Slot Thread) : Prop where
  count : state.jobs = [] → ∀ block, block < state.memory.next →
    state.memory.count block = (interface.liveTokens state).count block
  freed : state.jobs = [] → ∀ block, block < state.memory.next →
    (state.memory.freed block = 1 ↔ block ∉ interface.liveTokens state)
  once : ∀ block, state.memory.freed block ≤ 1
  guarded : ∀ block, state.memory.freed block = 1 → block ∉ interface.tokensOf state ∧
    ∀ job ∈ Pool.values state.jobs, job.program.touched ≠ some block
  last : ∀ block, block < state.memory.next → block ∉ interface.tokensOf state →
    state.memory.freed block = 0 →
      ∃ job ∈ Pool.values state.jobs, job.program.due = some block

omit [DecidableEq Slot] [DecidableEq Thread] in
/-- The handles of a live object are counted. -/
theorem mem_tokensOf {state : State Content Object Slot Thread} {object : Object}
    (live : object ∈ Pool.values state.objects) {block : Block}
    (handle : block ∈ interface.handles object) : block ∈ interface.tokensOf state :=
  Multiset.mem_add.mpr (.inl (mem_sum_map.mpr ⟨object, live, handle⟩))

omit [DecidableEq Slot] [DecidableEq Thread] in
/-- The blocks of a live object were not given back. -/
theorem Counted.alive {state : State Content Object Slot Thread} (counted : Counted interface state)
    {object : Object} (live : object ∈ Pool.values state.objects) {block : Block}
    (handle : block ∈ interface.handles object) : state.memory.freed block = 0 := by
  have once := counted.once block
  by_contra freed
  exact (counted.guarded block (by omega)).1 (mem_tokensOf live handle)

omit [DecidableEq Slot] [DecidableEq Thread] in
/-- An operation in progress goes on to touch only counters of blocks that were not given back. -/
theorem Accounts.touched {state : State Content Object Slot Thread}
    (accounts : Accounts modulus interface valid state) {job : Job Content Object Slot}
    (member : job ∈ Pool.values state.jobs) {block : Block}
    (touched : job.program.touched = some block) :
    block ∈ interface.tokensOf state ∨ block ∈ state.dues := by
  have sound := accounts.jobs job member _ fun _ _ stored => stored
  have held : block ∈ job.held → block ∈ interface.tokensOf state := fun counted =>
    Multiset.mem_add.mpr (.inr (mem_sum_map.mpr ⟨job, member, counted⟩))
  cases program : job.program with
  | fetchAdd | fetchSub =>
      rw [program] at touched sound
      cases touched
      exact .inl (held sound.2.1)
  | dealloc other next =>
      rw [program] at touched
      cases touched
      exact .inr (mem_sum_map.mpr ⟨job, member, by simp [program, Program.due]⟩)
  | done outcome => simp [program, Program.touched] at touched
  | abort => simp [program, Program.touched] at touched
  | alloc content next => simp [program, Program.touched] at touched
  | read other next => simp [program, Program.touched] at touched

omit [DecidableEq Slot] [DecidableEq Thread] in
/-- Accounted states with exclusive fates and small counters are counted. -/
theorem Accounts.counted {state : State Content Object Slot Thread}
    (accounts : Accounts modulus interface valid state)
    (exclusive : Exclusive state.memory (interface.tokensOf state) state.dues)
    (bounded : ∀ block, (interface.tokensOf state).count block < modulus) :
    Counted interface state := by
  have idle_tokens : state.jobs = [] → interface.tokensOf state = interface.liveTokens state := by
    intro idle
    simp [Interface.tokensOf, State.heldTokens, idle, Pool.values]
  constructor
  · intro idle block within
    rw [accounts.ledger.counted block within, Nat.mod_eq_of_lt (bounded block), idle_tokens idle]
  · intro idle block within
    have idle_dues : state.dues = 0 := by simp [State.dues, idle, Pool.values]
    have exclusive := exclusive block within
    rw [idle_dues, idle_tokens idle, Multiset.count_zero, add_zero] at exclusive
    rw [exclusive]
    simp
  · intro block
    by_cases kept : 0 < state.memory.freed block
    · exact Nat.le_of_eq (exclusive.given accounts.ledger kept).1
    · omega
  · intro block once
    obtain ⟨-, unheld, undue⟩ := exclusive.given accounts.ledger (Nat.lt_of_lt_of_eq Nat.one_pos once.symm)
    refine ⟨unheld, fun job member touched => ?_⟩
    exact (accounts.touched member touched).elim unheld undue
  · intro block within unheld kept
    have exclusive := exclusive block within
    rw [if_neg unheld, kept, zero_add] at exclusive
    have owed : block ∈ state.dues := Multiset.count_pos.mp (by omega)
    obtain ⟨job, member, due⟩ := mem_sum_map.mp owed
    refine ⟨job, member, ?_⟩
    rw [← Multiset.count_pos, Handle.count_tokens] at due
    by_contra other
    simp [other] at due

/-- Every bounded run of a lawful interface is counted. -/
theorem run_counted {limit : Nat} (large : 1 < modulus) (fits : limit ≤ modulus)
    (lawful : Lawful interface valid) {history : List Unit}
    {state : State Content Object Slot Thread}
    (run : ((machine modulus interface).confine (interface.Within limit)).Run {} history state) :
    Counted interface state := by
  have bounded : ∀ state : State Content Object Slot Thread, interface.Within limit state →
      ∀ block, (interface.tokensOf state).count block < modulus := by
    intro state within block
    by_cases member : block ∈ interface.tokensOf state
    · exact Nat.lt_of_lt_of_le (within block member) fits
    · rw [Multiset.count_eq_zero.mpr member]
      omega
  have reached : interface.Within limit state ∧ Accounts modulus interface valid state ∧
      Exclusive state.memory (interface.tokensOf state) state.dues := by
    apply run.invariant fun _ state => interface.Within limit state ∧
      Accounts modulus interface valid state ∧
      Exclusive state.memory (interface.tokensOf state) state.dues
    · refine ⟨?_, accounts_initial, fun block within => absurd within (Nat.not_lt_zero block)⟩
      intro block member
      simp [Interface.tokensOf, Interface.liveTokens, Interface.tokens, State.heldTokens,
        Pool.values] at member
    · rintro history before action event after ⟨within, accounts, exclusive⟩ step
      obtain ⟨taken, inside⟩ := StepSystem.confine_step.mp step
      have stepped := machine_stepped taken
      exact ⟨inside, accounts.step large lawful stepped,
        accounts.exclusive lawful exclusive (bounded before within) stepped⟩
  exact reached.2.1.counted reached.2.2 (bounded state reached.1)

end Steps

end MartCommon.Library.RefCount
