import MartCommon.Experimental.StoragePoolShares

namespace MartCommon.Experimental.StoragePool

open Library Library.SlotLedger

variable {n : Nat} {Object Thread : Type*}

/-- A copy increments the counter of a slot that has a reference: its target's old one, or the one that it
reads from. -/
def Supported (refs : Pool Object (Reference n)) (job : Job n Object) : Prop :=
  ∀ kind target entry old, job.phase = .acquire kind target entry old →
    old = some entry ∨ ∃ source reference, job.borrowed = some source ∧
      (source, reference) ∈ refs ∧ reference.ptr = some entry

/-- Every scan begins with the first slot. -/
def Phase.Begins (phase : Phase n Object) : Prop :=
  ∀ kind target index, phase = .scan kind target index → index = 0

/-- An operation begins without an atomic step. The shares may go to other hands. -/
structure Begins (before after : State n Object Thread) : Prop where
  slots : after.slots = before.slots
  shares : after.shares = before.shares
  kept : ∀ source ∈ before.borrowed, ∀ reference, (source, reference) ∈ before.refs →
    (source, reference) ∈ after.refs
  jobs : after.jobs = before.jobs ∨ ∃ thread job, before.idle thread ∧
    after.jobs = (thread, job) :: before.jobs ∧ Supported after.refs job ∧ job.phase.Begins

theorem supported_condDec (refs : Pool Object (Reference n)) (borrowed : Option Object)
    {ptr : Option (Fin n)} {after : Pool Object (Reference n)} {phase : Phase n Object}
    (begun : condDec ptr after = .inl phase) : Supported refs ⟨borrowed, phase⟩ ∧ phase.Begins := by
  cases ptr with
  | none => contradiction
  | some entry =>
      obtain rfl := Sum.inl.inj begun
      constructor
      · intro kind target entry old same
        contradiction
      · intro kind target index same
        contradiction

theorem supported_acquire {refs : Pool Object (Reference n)} {borrowed : Option Object}
    (kind : RefKind) (target : Object) {entry : Fin n} {old : Option (Fin n)}
    (counted : old = some entry ∨ ∃ source reference, borrowed = some source ∧
      (source, reference) ∈ refs ∧ reference.ptr = some entry) :
    Supported refs ⟨borrowed, .acquire kind target entry old⟩ ∧
      (Phase.acquire kind target entry old).Begins := by
  constructor
  · intro kind target entry old same
    obtain ⟨rfl, rfl, rfl, rfl⟩ := Phase.acquire.inj same
    exact counted
  · intro kind target index same
    contradiction

/-- What an operation does at its beginning, in terms of what it then does. -/
theorem Begins.resume {before taken : State n Object Thread} {thread : Thread}
    {borrowed : Option Object} {rest : Rest n Object} (idle : before.idle thread)
    (slots : taken.slots = before.slots) (jobs : taken.jobs = before.jobs)
    (shares : rest.shares + taken.shares = before.shares)
    (kept : ∀ source ∈ before.borrowed, ∀ reference, (source, reference) ∈ before.refs →
      (source, reference) ∈ taken.refs)
    (begun : ∀ phase, rest = .inl phase → Supported taken.refs ⟨borrowed, phase⟩ ∧ phase.Begins) :
    Begins before (taken.resume thread borrowed rest) := by
  cases rest with
  | inl phase =>
      refine ⟨slots, (shares_resume _ _ _ _).trans shares, kept, .inr ⟨thread, ⟨borrowed, phase⟩, idle, ?_,
        begun phase rfl⟩⟩
      rw [State.resume, jobs]
  | inr after =>
      refine ⟨slots, (shares_resume _ thread borrowed _).trans shares, ?_, .inl jobs⟩
      intro source lent reference member
      exact List.mem_append_right _ (kept source lent reference member)

variable [DecidableEq Object]

/-- What is read is there. -/
theorem mem_of_read {state : State n Object Thread} {object : Object} {reference : Reference n}
    (found : state.read object = some reference) : (object, reference) ∈ state.refs := by
  simp only [State.read, Option.map_eq_some_iff] at found
  obtain ⟨taken, left, rfl⟩ := found
  exact (Pool.take_perm left).mem_iff.mpr List.mem_cons_self

/-- A reference that is taken leaves with its share. What others read from stays. -/
theorem take_spec {state after : State n Object Thread} {object : Object} {reference : Reference n}
    (taken : state.take object = some (reference, after)) :
    after.slots = state.slots ∧ after.jobs = state.jobs ∧
      state.shares = pointerShares reference.ptr + after.shares ∧
      ∀ source ∈ state.borrowed, ∀ other, (source, other) ∈ state.refs → (source, other) ∈ after.refs := by
  unfold State.take at taken
  split at taken
  · contradiction
  rename_i unread
  simp only [Option.map_eq_some_iff, Prod.mk.injEq] at taken
  obtain ⟨⟨found, rest⟩, left, rfl, rfl⟩ := taken
  refine ⟨rfl, rfl, ?_, ?_⟩
  · simp only [State.shares, poolShares_perm (Pool.take_perm left), add_assoc]
  · intro source lent other member
    rcases List.mem_cons.mp ((Pool.take_perm left).mem_iff.mp member) with same | member
    · obtain ⟨rfl, -⟩ := Prod.mk.inj same
      exact absurd lent unread
    · exact member

theorem begins_copyConstruct {state after : State n Object Thread} {thread : Thread}
    {target source : Object} (idle : state.idle thread)
    (copied : copyConstruct state thread target source = some after) : Begins state after := by
  simp only [copyConstruct, Option.map_eq_some_iff] at copied
  obtain ⟨other, found, rfl⟩ := copied
  have member := mem_of_read found
  cases null : other.ptr with
  | none =>
      refine .resume idle rfl rfl ?_ (fun _ _ _ member => member) (fun _ impossible => ?_)
      · simp [Rest.shares, pointerShares, null]
      · contradiction
  | some entry =>
      refine .resume idle rfl rfl ?_ (fun _ _ _ member => member) (fun phase begun => ?_)
      · simp [Rest.shares, Phase.shares, pointerShares]
      · obtain rfl := Sum.inl.inj begun
        exact supported_acquire _ _ (.inr ⟨source, other, rfl, member, null⟩)

theorem begins_moveConstruct {state after : State n Object Thread} {kind : RefKind}
    {target source : Object} (moved : moveConstruct state kind target source = some after) :
    Begins state after := by
  simp only [moveConstruct, Option.map_eq_some_iff] at moved
  obtain ⟨⟨reference, left⟩, taken, rfl⟩ := moved
  obtain ⟨slots, jobs, shares, kept⟩ := take_spec taken
  refine ⟨slots, ?_, ?_, .inl jobs⟩
  · rw [shares]
    simp [State.shares, pointerShares, add_assoc]
  · intro object lent other member
    exact List.mem_cons_of_mem _ (List.mem_cons_of_mem _ (kept object lent other member))

/-- An assignment increments the counter of the new slot first, also where this is the old slot. -/
theorem begins_copyAssign {state after : State n Object Thread} {thread : Thread}
    {target source : Object} (idle : state.idle thread)
    (copied : copyAssign state thread target source = some after) : Begins state after := by
  simp only [copyAssign, Option.bind_eq_some_iff] at copied
  obtain ⟨⟨self, left⟩, taken, assigned⟩ := copied
  obtain ⟨slots, jobs, shares, kept⟩ := take_spec taken
  have assign : ∀ (borrowed : Option Object) (other : Reference n) (rest : Rest n Object),
      (other.ptr = none → rest = condDec self.ptr [(target, { self with ptr := none })]) →
      (∀ entry, other.ptr = some entry → rest = .inl (.acquire self.kind target entry self.ptr)) →
      (∀ entry, other.ptr = some entry → self.ptr = some entry ∨ ∃ lender reference,
        borrowed = some lender ∧ (lender, reference) ∈ left.refs ∧ reference.ptr = some entry) →
      Begins state (left.resume thread borrowed rest) := by
    intro borrowed other rest releases acquires supported
    cases null : other.ptr with
    | none =>
        rw [releases null]
        refine .resume idle slots jobs ?_ kept (fun phase begun => supported_condDec _ _ begun)
        simp [shares_condDec, shares, pointerShares]
    | some entry =>
        rw [acquires entry null]
        refine .resume idle slots jobs ?_ kept (fun phase begun => ?_)
        · simp [Rest.shares, Phase.shares, shares]
        · obtain rfl := Sum.inl.inj begun
          exact supported_acquire _ _ (supported entry null)
  split at assigned
  · obtain rfl := Option.some.inj assigned
    refine assign none self _ (fun null => ?_) (fun entry points => ?_) (fun entry same => .inl same)
    · rw [null]
    · rw [points]
  · simp only [Option.map_eq_some_iff] at assigned
    obtain ⟨other, found, rfl⟩ := assigned
    refine assign (some source) other _ (fun null => ?_) (fun entry points => ?_)
      (fun entry same => .inr ⟨source, other, rfl, mem_of_read found, same⟩)
    · rw [null]
    · rw [points]

theorem begins_moveAssign {state after : State n Object Thread} {thread : Thread}
    {target source : Object} (idle : state.idle thread)
    (moved : moveAssign state thread target source = some after) : Begins state after := by
  simp only [moveAssign, Option.bind_eq_some_iff, Option.map_eq_some_iff] at moved
  obtain ⟨⟨self, middle⟩, first, ⟨other, left⟩, second, rfl⟩ := moved
  obtain ⟨slots, jobs, shares, kept⟩ := take_spec first
  obtain ⟨slots', jobs', shares', kept'⟩ := take_spec second
  refine .resume idle (slots'.trans slots) (jobs'.trans jobs) ?_ ?_
    (fun phase begun => supported_condDec _ _ begun)
  · simp [shares_condDec, shares, shares', pointerShares, add_assoc]
  · intro object lent reference member
    have still : object ∈ middle.borrowed := by rwa [State.borrowed, jobs]
    exact kept' object still reference (kept object lent reference member)

theorem begins_drop {state left : State n Object Thread} {thread : Thread} {target : Object}
    {reference : Reference n} (idle : state.idle thread)
    (taken : state.take target = some (reference, left)) :
    Begins state (left.resume thread none (condDec reference.ptr [])) := by
  obtain ⟨slots, jobs, shares, kept⟩ := take_spec taken
  refine .resume idle slots jobs ?_ kept (fun phase begun => supported_condDec _ _ begun)
  simp [shares_condDec, shares]

variable [DecidableEq Thread]

/-- A step begins an operation without an event, or it is the next atomic step of an operation. -/
theorem step_cases {state after : State n Object Thread} {action : Action Object Thread}
    {event : Event n Thread} (stepped : step state action = some (event, after)) :
    (event = .silent ∧ Begins state after) ∨
      ∃ thread job rest, Pool.take thread state.jobs = some (job, rest) ∧
        event = (job.phase.advance state.slots thread).1 ∧
        after = { state with slots := (job.phase.advance state.slots thread).2.1, jobs := rest }.resume
          thread job.borrowed (job.phase.advance state.slots thread).2.2 := by
  have begun : ∀ {operation : Option (State n Object Thread)},
      (operation.map fun after => ((.silent : Event n Thread), after)) = some (event, after) →
      (∀ result, operation = some result → Begins state result) → event = .silent ∧ Begins state after := by
    intro operation mapped begins
    simp only [Option.map_eq_some_iff, Prod.mk.injEq] at mapped
    obtain ⟨result, same, rfl, rfl⟩ := mapped
    exact ⟨rfl, begins result same⟩
  cases action with
  | construct thread kind target =>
      simp only [step, Option.ite_none_right_eq_some, Option.some.injEq, Prod.mk.injEq] at stepped
      obtain ⟨⟨idle, fresh⟩, rfl, rfl⟩ := stepped
      refine .inl ⟨rfl, .resume idle rfl rfl (zero_add _) (fun _ _ _ member => member) ?_⟩
      intro phase begun
      obtain rfl := Sum.inl.inj begun
      constructor
      · intro kind object slot old same
        contradiction
      · intro kind object index same
        exact (Phase.scan.inj same).2.2.symm
  | defaultConstruct kind target =>
      simp only [step, Option.ite_none_right_eq_some, Option.some.injEq, Prod.mk.injEq] at stepped
      obtain ⟨fresh, rfl, rfl⟩ := stepped
      refine .inl ⟨rfl, rfl, ?_, fun _ _ _ member => List.mem_cons_of_mem _ member, .inl rfl⟩
      simp [State.shares, pointerShares]
  | copyConstruct thread target source =>
      simp only [step, Option.ite_none_right_eq_some] at stepped
      exact .inl (begun stepped.2 fun _ copied => begins_copyConstruct stepped.1.1 copied)
  | moveConstruct target source =>
      simp only [step, Option.ite_none_right_eq_some, Option.bind_eq_some_iff] at stepped
      obtain ⟨fresh, kind, known, moved⟩ := stepped
      exact .inl (begun moved fun _ moved => begins_moveConstruct moved)
  | convert target source =>
      simp only [step, Option.ite_none_right_eq_some] at stepped
      exact .inl (begun stepped.2 fun _ moved => begins_moveConstruct moved)
  | copyAssign thread target source =>
      simp only [step, Option.ite_none_right_eq_some] at stepped
      exact .inl (begun stepped.2 fun _ copied => begins_copyAssign stepped.1.1 copied)
  | moveAssign thread target source =>
      simp only [step, Option.ite_none_right_eq_some] at stepped
      exact .inl (begun stepped.2 fun _ moved => begins_moveAssign stepped.1.1 moved)
  | drop thread target =>
      simp only [step, Option.ite_none_right_eq_some, Option.map_eq_some_iff, Prod.mk.injEq] at stepped
      obtain ⟨idle, ⟨reference, left⟩, taken, rfl, rfl⟩ := stepped
      exact .inl ⟨rfl, begins_drop idle taken⟩
  | tick thread =>
      simp only [step, Option.map_eq_some_iff, Prod.mk.injEq] at stepped
      obtain ⟨⟨job, rest⟩, taken, rfl, rfl⟩ := stepped
      exact .inr ⟨thread, job, rest, taken, rfl, rfl⟩

end MartCommon.Experimental.StoragePool
