import MartCommon.Experimental.StoragePoolOperations

namespace MartCommon.Experimental.StoragePool

open Library Library.SlotLedger

variable {n : Nat} {Object Thread : Type*}

/-- The thread that an event belongs to. -/
def Event.thread : Event n Thread → Option Thread
  | .silent => none
  | .loaded thread _ _ | .allocFailed thread | .exchanged thread _ _ | .constructed thread _
  | .incremented thread _ | .decremented thread _ _ | .destroyed thread _ | .stored thread _ =>
      some thread

/-- The slot that an event changes. -/
def Event.entry : Event n Thread → Option (Fin n)
  | .silent | .loaded .. | .allocFailed _ | .exchanged _ _ false => none
  | .exchanged _ entry true | .constructed _ entry | .incremented _ entry
  | .decremented _ entry _ | .destroyed _ entry | .stored _ entry => some entry

/-- A slot is free, or one thread has it alone, or it has a number of references. -/
inductive Stage (Thread : Type*) where
  | free
  | reserved (thread : Thread)
  | built (thread : Thread)
  | shared (references : Nat)
  | dropped (thread : Thread)
  | ended (thread : Thread)
  deriving DecidableEq, Repr

/-- The slot has a live `T`. -/
def Stage.live : Stage Thread → Bool
  | .free | .reserved _ | .ended _ => false
  | .built _ | .shared _ | .dropped _ => true

def Stage.references : Stage Thread → Nat
  | .shared references => references
  | _ => 0

/-- The slot that an operation has alone, and the stage of this slot. -/
def Phase.stage (thread : Thread) : Phase n Object → Option (Fin n × Stage Thread)
  | .scan .. | .exchange .. | .acquire .. | .release .. => none
  | .place _ _ entry => some (entry, .reserved thread)
  | .publish _ _ entry => some (entry, .built thread)
  | .destruct entry _ => some (entry, .dropped thread)
  | .free entry _ => some (entry, .ended thread)

/-- How a stage shows in the state of the store. -/
def Stage.Matches (state : State n Object Thread) (slot : Fin n) : Stage Thread → Prop
  | .free => ∀ share, state.shares.count (slot, share) = 0
  | .shared references => 0 < references ∧ state.references slot = references
  | alone => ∃ thread job, (thread, job) ∈ state.jobs ∧ job.phase.stage thread = some (slot, alone)

section Lifecycle

variable [DecidableEq Thread]

/-- One lifetime after the other. A slot is claimed only while it is free, and a `T` is constructed only
in a claimed slot. Who drops the last reference destroys the `T` and frees the slot. -/
def Stage.next : Stage Thread → Event n Thread → Option (Stage Thread)
  | .free, .exchanged thread _ true => some (.reserved thread)
  | .reserved owner, .constructed thread _ => if thread = owner then some (.built owner) else none
  | .built owner, .incremented thread _ => if thread = owner then some (.shared 1) else none
  | .shared references, .incremented _ _ => some (.shared (references + 1))
  | .shared references, .decremented thread _ _ =>
      some (if references = 1 then .dropped thread else .shared (references - 1))
  | .dropped owner, .destroyed thread _ => if thread = owner then some (.ended owner) else none
  | .ended owner, .stored thread _ => if thread = owner then some .free else none
  | _, _ => none

/-- The stage of a slot after a history, if the history keeps to lifetimes. -/
def lifecycle (slot : Fin n) (history : List (Event n Thread)) : Option (Stage Thread) :=
  (history.filter fun event => event.entry = some slot).foldlM Stage.next .free

/-- The events of one thread. -/
def own (thread : Thread) (history : List (Event n Thread)) : List (Event n Thread) :=
  history.filter fun event => event.thread = some thread

end Lifecycle

/-- The last loads of a thread went over the first slots, and none of these was free. -/
inductive Scanned (thread : Thread) : Nat → List (Event n Thread) → Prop where
  | start (events : List (Event n Thread)) : Scanned thread 0 events
  | pass {index : Nat} {events : List (Event n Thread)} {cnt : BitVec 32} (inside : index < n)
      (scanned : Scanned thread index events) (busy : cnt ≠ -1) :
      Scanned thread (index + 1) (events ++ [.loaded thread ⟨index, inside⟩ cnt])

/-- A step extends the lifecycle of the slot that it changes. -/
theorem lifecycle_append [DecidableEq Thread] (slot : Fin n) (history : List (Event n Thread))
    (event : Event n Thread) :
    lifecycle slot (history ++ [event]) =
      if event.entry = some slot then (lifecycle slot history).bind fun stage => stage.next event
      else lifecycle slot history := by
  simp only [lifecycle, List.filter_append, List.foldlM_append]
  by_cases changed : event.entry = some slot
  · simp [changed]
  · simp [changed]

theorem own_append [DecidableEq Thread] (thread : Thread) (history : List (Event n Thread))
    (event : Event n Thread) :
    own thread (history ++ [event]) =
      if event.thread = some thread then own thread history ++ [event] else own thread history := by
  simp only [own, List.filter_append]
  by_cases same : event.thread = some thread
  · simp [same]
  · simp [same]

/-- An operation that has a slot alone holds it with or without the object. -/
theorem Phase.stage_share {phase : Phase n Object} {thread : Thread} {slot : Fin n}
    {stage : Stage Thread} (alone : phase.stage thread = some (slot, stage)) :
    (slot, if stage.live then .occupied else .vacant) ∈ phase.shares ∧ stage.references = 0 := by
  cases phase <;> simp only [Phase.stage, Option.some.injEq, Prod.mk.injEq, reduceCtorEq] at alone
  all_goals
    obtain ⟨rfl, rfl⟩ := alone
    simp [Phase.shares, Stage.live, Stage.references]

theorem Phase.stage_count {phase : Phase n Object} {thread : Thread} {slot : Fin n}
    {stage : Stage Thread} (alone : phase.stage thread = some (slot, stage)) :
    0 < phase.shares.count (slot, .vacant) + phase.shares.count (slot, .occupied) := by
  have positive := Multiset.count_pos.mpr (Phase.stage_share alone).1
  split at positive
  · exact Nat.add_pos_right _ positive
  · exact Nat.add_pos_left positive _

/-- An operation that has a slot alone has it without references. -/
theorem Booked.alone {state : State n Object Thread} {slot : Fin n} {entry : Thread × Job n Object}
    {stage : Stage Thread} (booked : Booked state.slots state.shares) (member : entry ∈ state.jobs)
    (alone : entry.2.phase.stage entry.1 = some (slot, stage)) :
    state.references slot = 0 ∧
      0 < state.shares.count (slot, .vacant) + state.shares.count (slot, .occupied) := by
  obtain ⟨rest, parts⟩ := Pool.perm_of_mem member
  have positive := Phase.stage_count alone
  have held : 0 < state.shares.count (slot, .vacant) + state.shares.count (slot, .occupied) := by
    simp only [shares_perm parts, Multiset.count_add]
    omega
  exact ⟨(booked slot).one.2 held, held⟩

/-- A slot with references is live, and its counter is their number. -/
theorem Booked.counted {state : State n Object Thread} {slot : Fin n}
    (booked : Booked state.slots state.shares) (positive : 0 < state.references slot) :
    (state.slots slot).live = true ∧ (state.slots slot).cnt.toNat = state.references slot := by
  have account := booked slot
  change Account _ _ (state.references slot) _ _ at account
  obtain ⟨more, same⟩ := Nat.exists_eq_add_of_lt positive
  rw [same] at account ⊢
  exact ⟨account.referenced.1, account.referenced.2.1⟩

/-- A slot is free where its counter is `-1`. -/
theorem Booked.matches_free {state : State n Object Thread} {slot : Fin n}
    (booked : Booked state.slots state.shares) (marked : (state.slots slot).cnt = -1) :
    Stage.free.Matches state slot := by
  have account := booked slot
  rw [Function.comp_apply, marked] at account
  obtain ⟨-, references, vacant, occupied⟩ := account.marked (by decide)
  intro share
  cases share with
  | reference => exact references
  | vacant => exact vacant
  | occupied => exact occupied

/-- Two operations cannot have one slot alone. -/
theorem Booked.exclusive {state : State n Object Thread} {slot : Fin n}
    {first second : Thread × Job n Object} {stage stage' : Stage Thread}
    (booked : Booked state.slots state.shares) (here : first ∈ state.jobs) (there : second ∈ state.jobs)
    (alone : first.2.phase.stage first.1 = some (slot, stage))
    (alone' : second.2.phase.stage second.1 = some (slot, stage')) : first = second := by
  obtain ⟨rest, parts⟩ := Pool.perm_of_mem here
  rcases List.mem_cons.mp (parts.mem_iff.mp there) with same | other
  · exact same.symm
  obtain ⟨others, parts'⟩ := Pool.perm_of_mem other
  have one := (booked slot).one.1
  have positive := Phase.stage_count alone
  have positive' := Phase.stage_count alone'
  simp only [shares_perm parts, jobShares_perm parts', Multiset.count_add] at one
  omega

/-- A stage shows as free, as shared or as an operation that has the slot alone. -/
theorem Stage.matches_cases {state : State n Object Thread} {slot : Fin n} {stage : Stage Thread}
    (shown : stage.Matches state slot) :
    (stage = .free ∧ ∀ share, state.shares.count (slot, share) = 0) ∨
      (0 < state.references slot ∧ stage = .shared (state.references slot)) ∨
      ∃ entry ∈ state.jobs, entry.2.phase.stage entry.1 = some (slot, stage) := by
  cases stage with
  | free => exact .inl ⟨rfl, shown⟩
  | shared references =>
      obtain ⟨positive, exact⟩ := shown
      exact .inr (.inl ⟨exact ▸ positive, exact ▸ rfl⟩)
  | reserved owner | built owner | dropped owner | ended owner =>
      obtain ⟨thread, job, member, alone⟩ := shown
      exact .inr (.inr ⟨(thread, job), member, alone⟩)

/-- The slot of an operation is in the stage that the operation says. -/
theorem Stage.matches_alone {state : State n Object Thread} {slot : Fin n} {stage : Stage Thread}
    {entry : Thread × Job n Object} (member : entry ∈ state.jobs)
    (alone : entry.2.phase.stage entry.1 = some (slot, stage)) : stage.Matches state slot := by
  have shown : ∃ thread job, (thread, job) ∈ state.jobs ∧ job.phase.stage thread = some (slot, stage) :=
    ⟨entry.1, entry.2, member, alone⟩
  obtain ⟨thread, borrowed, phase⟩ := entry
  cases phase <;> simp only [Phase.stage, Option.some.injEq, Prod.mk.injEq, reduceCtorEq] at alone
  all_goals
    obtain ⟨-, rfl⟩ := alone
    exact shown

/-- Only one stage shows. -/
theorem Booked.stage_eq {state : State n Object Thread} {slot : Fin n} {stage stage' : Stage Thread}
    (booked : Booked state.slots state.shares) (shown : stage.Matches state slot)
    (shown' : stage'.Matches state slot) : stage = stage' := by
  rcases Stage.matches_cases shown with ⟨rfl, free⟩ | ⟨positive, rfl⟩ | ⟨entry, member, alone⟩ <;>
    rcases Stage.matches_cases shown' with ⟨rfl, free'⟩ | ⟨positive', rfl⟩ | ⟨entry', member', alone'⟩
  · rfl
  · exact absurd (free .reference) positive'.ne'
  · have held := (booked.alone member' alone').2
    rw [free, free] at held
    exact absurd held (lt_irrefl 0)
  · exact absurd (free' .reference) positive.ne'
  · rfl
  · exact absurd (booked.alone member' alone').1 positive.ne'
  · have held := (booked.alone member alone).2
    rw [free', free'] at held
    exact absurd held (lt_irrefl 0)
  · exact absurd (booked.alone member alone).1 positive'.ne'
  · obtain rfl := booked.exclusive member member' alone alone'
    rw [alone] at alone'
    exact (Prod.mk.inj (Option.some.inj alone')).2

/-- The stage of a slot tells whether it has a live object, and how many references it has. -/
theorem Booked.live_eq {state : State n Object Thread} {slot : Fin n} {stage : Stage Thread}
    (booked : Booked state.slots state.shares) (shown : stage.Matches state slot) :
    (state.slots slot).live = stage.live ∧ state.references slot = stage.references := by
  have account := booked slot
  change Account _ _ (state.references slot) _ _ at account
  rcases Stage.matches_cases shown with ⟨rfl, free⟩ | ⟨positive, rfl⟩ | ⟨entry, member, alone⟩
  · rw [State.references, free, free, free] at account
    exact ⟨account.unheld, free _⟩
  · exact ⟨(booked.counted positive).1, rfl⟩
  · obtain ⟨share, none⟩ := Phase.stage_share alone
    refine ⟨?_, (booked.alone member alone).1.trans none.symm⟩
    obtain ⟨rest, parts⟩ := Pool.perm_of_mem member
    have held : (slot, if stage.live then .occupied else .vacant) ∈ state.shares := by
      rw [shares_perm parts]
      exact Multiset.mem_add.mpr (.inl share)
    have counted := Multiset.count_pos.mpr held
    obtain ⟨more, same⟩ := Nat.exists_eq_add_of_lt counted
    split at same
    · rename_i live
      rw [same, zero_add] at account
      exact account.alone.1.trans live.symm
    · rename_i live
      rw [same, zero_add] at account
      exact account.empty.1.trans (Bool.eq_false_iff.mpr live).symm

/-- A scan ends with the array. -/
theorem Scanned.index_le {thread : Thread} {index : Nat} {events : List (Event n Thread)}
    (scanned : Scanned thread index events) : index ≤ n := by
  cases scanned with
  | start => exact Nat.zero_le _
  | pass inside => exact inside

/-- What the store promises after each run: it follows the lifetimes of its slots, operations that have
a slot alone are alone indeed, references point to live objects, and `alloc()` fails only after a scan
without a free slot. -/
structure Sound [DecidableEq Thread] (history : List (Event n Thread))
    (state : State n Object Thread) : Prop where
  lifetimes : ∀ slot, ∃ stage, lifecycle slot history = some stage ∧ stage.Matches state slot ∧
    (state.slots slot).live = stage.live ∧ state.references slot = stage.references
  exclusive : ∀ slot first second, first ∈ state.jobs → second ∈ state.jobs →
    (∃ stage, first.2.phase.stage first.1 = some (slot, stage)) →
    (∃ stage, second.2.phase.stage second.1 = some (slot, stage)) →
    first = second ∧ state.references slot = 0
  alive : ∀ object reference slot, (object, reference) ∈ state.refs → reference.ptr = some slot →
    (state.slots slot).live = true
  full : ∀ thread earlier later, history = earlier ++ .allocFailed thread :: later →
    Scanned thread n (own thread earlier)

end MartCommon.Experimental.StoragePool
