import MartCommon.Experimental.StorageLifecycle

namespace MartCommon.Experimental.StoragePool

open Library Library.SlotLedger

variable {n : Nat} {Object Thread : Type*}

/-- A stage still shows where the shares of the slot and the operations that have it alone are the
same. -/
theorem Stage.matches_same {before after : State n Object Thread} {slot : Fin n} {stage : Stage Thread}
    (counts : ∀ share, after.shares.count (slot, share) = before.shares.count (slot, share))
    (kept : ∀ entry ∈ before.jobs, ∀ other, entry.2.phase.stage entry.1 = some (slot, other) →
      entry ∈ after.jobs)
    (shown : stage.Matches before slot) : stage.Matches after slot := by
  rcases Stage.matches_cases shown with ⟨rfl, free⟩ | ⟨positive, rfl⟩ | ⟨entry, member, alone⟩
  · intro share
    exact (counts share).trans (free share)
  · exact ⟨positive, counts .reference⟩
  · exact Stage.matches_alone (kept entry member stage alone) alone

section Advance

variable {slots : Fin n → StorageSlot} {thread : Thread} {phase : Phase n Object}

/-- An operation has only the slot alone that its next step changes. -/
theorem Phase.stage_entry {slot : Fin n} {stage : Stage Thread}
    (alone : phase.stage thread = some (slot, stage)) :
    (phase.advance slots thread).1.entry = some slot := by
  cases phase <;> simp only [Phase.stage, Option.some.injEq, Prod.mk.injEq, reduceCtorEq] at alone
  all_goals
    obtain ⟨rfl, -⟩ := alone
    rfl

/-- A step exchanges shares of the slot that it changes. -/
theorem Phase.advance_elsewhere {slot : Fin n}
    (elsewhere : (phase.advance slots thread).1.entry ≠ some slot) (share : Share) :
    (phase.advance slots thread).2.2.shares.count (slot, share) = phase.shares.count (slot, share) := by
  cases phase with
  | scan kind target index =>
      simp only [Phase.advance]
      split
      · simp only
        split <;> rfl
      · rfl
  | exchange kind target entry =>
      simp only [Phase.advance] at elsewhere ⊢
      split
      · rename_i marked
        rw [if_pos marked] at elsewhere
        have different : slot ≠ entry := fun same => elsewhere (congrArg some same.symm)
        exact Multiset.count_cons_of_ne (fun same => different (congrArg Prod.fst same)) 0
      · rfl
  | place kind target entry | publish kind target entry =>
      have different : slot ≠ entry := fun same => elsewhere (congrArg some same.symm)
      simp [Phase.advance, Rest.shares, Phase.shares, pointerShares, different]
  | acquire kind target entry old =>
      have different : slot ≠ entry := fun same => elsewhere (congrArg some same.symm)
      simp [Phase.advance, shares_condDec, Phase.shares, pointerShares, different]
  | release entry after =>
      have different : slot ≠ entry := fun same => elsewhere (congrArg some same.symm)
      simp only [Phase.advance, Phase.shares, count_cons_elsewhere different]
      split
      · exact count_cons_elsewhere different .occupied share
      · rfl
  | destruct entry after | free entry after =>
      have different : slot ≠ entry := fun same => elsewhere (congrArg some same.symm)
      simp [Phase.advance, Rest.shares, Phase.shares, different]

/-- No step begins a copy. -/
theorem Phase.advance_copies {kind : RefKind} {target : Object} {entry : Fin n}
    {old : Option (Fin n)} :
    (phase.advance slots thread).2.2 ≠ .inl (.acquire kind target entry old) := by
  intro copies
  cases phase with
  | scan => simp only [Phase.advance] at copies; grind
  | exchange => simp only [Phase.advance] at copies; grind
  | place | publish | destruct | free => simp [Phase.advance] at copies
  | acquire _ _ _ old => cases old <;> simp [Phase.advance, condDec] at copies
  | release => simp only [Phase.advance] at copies; grind

theorem Phase.advance_thread : (phase.advance slots thread).1.thread = some thread := by
  cases phase with
  | scan | exchange =>
      simp only [Phase.advance]
      split <;> rfl
  | place | publish | acquire | release | destruct | free => rfl

/-- A scan goes on after a load that is not `-1`, and starts again after a lost exchange. -/
theorem Phase.advance_scan {kind : RefKind} {target : Object} {index : Nat}
    (scans : (phase.advance slots thread).2.2 = .inl (.scan kind target index)) :
    index = 0 ∨ ∃ before inside cnt, index = before + 1 ∧ phase = .scan kind target before ∧
      (phase.advance slots thread).1 = .loaded thread ⟨before, inside⟩ cnt ∧ cnt ≠ -1 := by
  cases phase with
  | scan kind' target' before =>
      simp only [Phase.advance] at scans ⊢
      split at scans
      · rename_i inside
        simp only at scans
        split at scans
        · cases Sum.inl.inj scans
        · rename_i busy
          obtain ⟨rfl, rfl, rfl⟩ := Phase.scan.inj (Sum.inl.inj scans)
          exact .inr ⟨before, inside, _, rfl, rfl, by simp [inside], busy⟩
      · contradiction
  | exchange kind' target' entry =>
      simp only [Phase.advance] at scans
      split at scans
      · cases Sum.inl.inj scans
      · exact .inl (Phase.scan.inj (Sum.inl.inj scans)).2.2.symm
  | place | publish | destruct | free => simp [Phase.advance] at scans
  | acquire _ _ _ old => cases old <;> simp [Phase.advance, condDec] at scans
  | release entry after =>
      simp only [Phase.advance] at scans
      split at scans <;> simp at scans

/-- `alloc()` fails at the end of the array. -/
theorem Phase.advance_failed {other : Thread}
    (failed : (phase.advance slots thread).1 = .allocFailed other) :
    thread = other ∧ ∃ kind target index, phase = .scan kind target index ∧ n ≤ index := by
  have own : (phase.advance slots thread).1.thread = some other := by rw [failed]; rfl
  refine ⟨Option.some.inj (Phase.advance_thread.symm.trans own), ?_⟩
  cases phase with
  | scan kind target index =>
      refine ⟨kind, target, index, rfl, ?_⟩
      by_contra inside
      simp only [Phase.advance, dif_pos (not_le.mp inside)] at failed
      contradiction
  | exchange kind target entry =>
      simp only [Phase.advance] at failed
      split at failed <;> contradiction
  | place | publish | acquire | release | destruct | free => contradiction

end Advance

/-- The store after the next atomic step of an operation that has left the pool. -/
def State.ticked (state : State n Object Thread) (thread : Thread) (job : Job n Object)
    (rest : Pool Thread (Job n Object)) : State n Object Thread :=
  { state with slots := (job.phase.advance state.slots thread).2.1, jobs := rest }.resume thread
    job.borrowed (job.phase.advance state.slots thread).2.2

section Ticked

variable {state : State n Object Thread} {thread : Thread} {job : Job n Object}
  {rest : Pool Thread (Job n Object)}

theorem ticked_slots : (state.ticked thread job rest).slots =
    (job.phase.advance state.slots thread).2.1 := by
  unfold State.ticked State.resume
  cases (job.phase.advance state.slots thread).2.2 <;> rfl

theorem ticked_shares : (state.ticked thread job rest).shares =
    (job.phase.advance state.slots thread).2.2.shares + (poolShares state.refs + jobShares rest) :=
  shares_resume _ _ _ _

/-- All references and all other operations are still there. -/
theorem ticked_refs {entry : Object × Reference n} (member : entry ∈ state.refs) :
    entry ∈ (state.ticked thread job rest).refs := by
  unfold State.ticked State.resume
  cases (job.phase.advance state.slots thread).2.2 with
  | inl phase => exact member
  | inr after => exact List.mem_append_right _ member

theorem ticked_jobs (state : State n Object Thread) (thread : Thread) (job : Job n Object)
    (rest : Pool Thread (Job n Object)) : (state.ticked thread job rest).jobs = rest ∨
    ∃ phase, (job.phase.advance state.slots thread).2.2 = .inl phase ∧
      (state.ticked thread job rest).jobs = (thread, ⟨job.borrowed, phase⟩) :: rest := by
  unfold State.ticked State.resume
  cases (job.phase.advance state.slots thread).2.2 with
  | inl phase => exact .inr ⟨phase, rfl, rfl⟩
  | inr after => exact .inl rfl

theorem ticked_mem {entry : Thread × Job n Object} (member : entry ∈ rest) :
    entry ∈ (state.ticked thread job rest).jobs := by
  rcases ticked_jobs state thread job rest with same | ⟨phase, -, same⟩
  · rwa [same]
  · rw [same]
    exact List.mem_cons_of_mem _ member

variable (parts : state.jobs.Perm ((thread, job) :: rest))

include parts

/-- A reference is there for a copy to count on. -/
theorem Supported.member {kind : RefKind} {target : Object} {entry : Fin n} {old : Option (Fin n)}
    (supported : Supported state.refs job) (copies : job.phase = .acquire kind target entry old) :
    (entry, .reference) ∈ state.shares := by
  rcases supported kind target entry old copies with rfl | ⟨source, reference, -, member, same⟩
  · rw [shares_perm parts, copies]
    simp [Phase.shares, pointerShares]
  · exact Multiset.mem_add.mpr (.inl (mem_poolShares member same))

/-- The books are kept by each atomic step that leaves the counters room, beside other shares. -/
theorem Booked.tick_beside {others : Multiset (Fin n × Share)}
    (booked : Booked state.slots (state.shares + others))
    (unreferenced : ∀ slot, others.count (slot, .reference) = 0) (supported : Supported state.refs job)
    (within : Within (state.ticked thread job rest)) :
    Booked (state.ticked thread job rest).slots ((state.ticked thread job rest).shares + others) := by
  rw [ticked_slots, ticked_shares, add_assoc]
  rw [shares_perm parts, add_assoc] at booked
  apply Booked.advance booked
  · intro kind target entry old copies
    rw [← add_assoc, ← shares_perm parts]
    exact Multiset.mem_add.mpr (.inl (supported.member parts copies))
  · intro slot
    have room := within slot
    rw [State.references, ticked_shares] at room
    rwa [← add_assoc, Multiset.count_add, unreferenced slot, add_zero]

theorem Booked.tick (booked : Booked state.slots state.shares) (supported : Supported state.refs job)
    (within : Within (state.ticked thread job rest)) :
    Booked (state.ticked thread job rest).slots (state.ticked thread job rest).shares := by
  have beside : Booked state.slots (state.shares + 0) := by rwa [add_zero]
  simpa using beside.tick_beside parts (fun _ => rfl) supported within

/-- The slot that an atomic step changes goes on in its lifetime. -/
theorem Booked.tick_stage [DecidableEq Thread] {slot : Fin n} (booked : Booked state.slots state.shares)
    (supported : Supported state.refs job)
    (changed : (job.phase.advance state.slots thread).1.entry = some slot) :
    ∃ stage stage' : Stage Thread, stage.Matches state slot ∧
      stage.next (job.phase.advance state.slots thread).1 = some stage' ∧
      stage'.Matches (state.ticked thread job rest) slot := by
  have member : (thread, job) ∈ state.jobs := parts.mem_iff.mpr List.mem_cons_self
  have before := shares_perm parts
  have after : (state.ticked thread job rest).shares = _ := ticked_shares
  obtain ⟨borrowed, phase⟩ := job
  cases phase with
  | scan kind target index =>
      simp only [Phase.advance] at changed
      split at changed <;> contradiction
  | exchange kind target entry =>
      by_cases marked : (state.slots entry).cnt = -1
      · simp only [Phase.advance, if_pos marked] at changed ⊢
        obtain rfl := Option.some.inj changed
        have claimed : (thread, (⟨borrowed, .place kind target entry⟩ : Job n Object)) ∈
            (state.ticked thread ⟨borrowed, .exchange kind target entry⟩ rest).jobs := by
          simp [State.ticked, Phase.advance, marked, State.resume]
        exact ⟨.free, .reserved thread, booked.matches_free marked, rfl,
          Stage.matches_alone claimed rfl⟩
      · simp only [Phase.advance, if_neg marked] at changed
        contradiction
  | place kind target entry =>
      obtain rfl := Option.some.inj changed
      have built : (thread, (⟨borrowed, .publish kind target entry⟩ : Job n Object)) ∈
          (state.ticked thread ⟨borrowed, .place kind target entry⟩ rest).jobs := List.mem_cons_self
      exact ⟨.reserved thread, .built thread, Stage.matches_alone member rfl, if_pos rfl,
        Stage.matches_alone built rfl⟩
  | publish kind target entry =>
      obtain rfl := Option.some.inj changed
      have alone : state.references entry = 0 := (booked.alone member rfl).1
      refine ⟨.built thread, .shared 1, Stage.matches_alone member rfl, if_pos rfl, Nat.one_pos, ?_⟩
      rw [State.references, before] at alone
      rw [State.references, after]
      simpa [Phase.advance, Rest.shares, Phase.shares, pointerShares] using alone
  | acquire kind target entry old =>
      obtain rfl := Option.some.inj changed
      have positive := Multiset.count_pos.mpr (supported.member parts rfl)
      refine ⟨.shared (state.references entry), .shared (state.references entry + 1), ⟨positive, rfl⟩, rfl,
        Nat.succ_pos _, ?_⟩
      rw [State.references, State.references, before, after]
      simp [Phase.advance, shares_condDec, Phase.shares, pointerShares]
      omega
  | release entry others =>
      obtain rfl := Option.some.inj changed
      have count : state.references entry =
          (poolShares others + (poolShares state.refs + jobShares rest)).count (entry, .reference) + 1 := by
        rw [State.references, before]
        simp only [Phase.shares, Multiset.cons_add, Multiset.count_cons_self]
      have positive : 0 < state.references entry := count ▸ Nat.succ_pos _
      have exact := (booked.counted positive).2
      refine ⟨.shared (state.references entry), _, ⟨positive, rfl⟩, rfl, ?_⟩
      by_cases last : (state.slots entry).cnt = 1
      · rw [if_pos (by rw [← exact, last]; rfl)]
        have dropped : (thread, (⟨borrowed, .destruct entry others⟩ : Job n Object)) ∈
            (state.ticked thread ⟨borrowed, .release entry others⟩ rest).jobs := by
          simp [State.ticked, Phase.advance, last, State.resume]
        exact Stage.matches_alone dropped rfl
      · have more : state.references entry ≠ 1 := fun one =>
          last (BitVec.eq_of_toNat_eq (exact.trans one))
        rw [if_neg more]
        refine ⟨by omega, ?_⟩
        rw [count, State.references, after]
        simp only [Phase.advance, if_neg last, Rest.shares, Nat.add_sub_cancel]
  | destruct entry others =>
      obtain rfl := Option.some.inj changed
      have ended : (thread, (⟨borrowed, .free entry others⟩ : Job n Object)) ∈
          (state.ticked thread ⟨borrowed, .destruct entry others⟩ rest).jobs := List.mem_cons_self
      exact ⟨.dropped thread, .ended thread, Stage.matches_alone member rfl, if_pos rfl,
        Stage.matches_alone ended rfl⟩
  | free entry others =>
      obtain rfl := Option.some.inj changed
      refine ⟨.ended thread, .free, Stage.matches_alone member rfl, if_pos rfl, ?_⟩
      have account := booked entry
      simp only [before, Phase.shares, Multiset.cons_add, Multiset.count_cons_self] at account
      obtain ⟨-, references, vacant, occupied⟩ := account.empty
      intro share
      rw [after]
      cases share with
      | reference => exact (Multiset.count_cons_of_ne (by simp) _).symm.trans references
      | vacant => exact vacant
      | occupied => exact (Multiset.count_cons_of_ne (by simp) _).symm.trans occupied

end Ticked

/-- Operations keep what they read from. -/
theorem Supported.kept {before after : Pool Object (Reference n)} {job : Job n Object}
    (supported : Supported before job)
    (kept : ∀ source, job.borrowed = some source → ∀ reference, (source, reference) ∈ before →
      (source, reference) ∈ after) : Supported after job := by
  intro kind target entry old copies
  rcases supported kind target entry old copies with same | ⟨source, reference, lent, member, same⟩
  · exact .inl same
  · exact .inr ⟨source, reference, lent, kept source lent reference member, same⟩

/-- The copies in progress have a reference to count on, also when another operation begins. -/
theorem Begins.supported {before after : State n Object Thread} (begins : Begins before after)
    (supported : ∀ entry ∈ before.jobs, Supported before.refs entry.2) :
    ∀ entry ∈ after.jobs, Supported after.refs entry.2 := by
  have kept : ∀ entry ∈ before.jobs, Supported after.refs entry.2 := by
    intro entry member
    apply (supported entry member).kept
    intro source lent
    have borrowed : source ∈ before.borrowed :=
      List.mem_filterMap.mpr ⟨entry.2, List.mem_map_of_mem member, lent⟩
    exact begins.kept source borrowed
  rcases begins.jobs with same | ⟨thread, job, idle, same, fresh, -⟩
  · rwa [same]
  · rw [same]
    exact List.forall_mem_cons.mpr ⟨fresh, kept⟩

/-- An atomic step takes no reference away and begins no copy. -/
theorem supported_tick {state : State n Object Thread} {thread : Thread} {job : Job n Object}
    {rest : Pool Thread (Job n Object)} (parts : state.jobs.Perm ((thread, job) :: rest))
    (supported : ∀ entry ∈ state.jobs, Supported state.refs entry.2) :
    ∀ entry ∈ (state.ticked thread job rest).jobs,
      Supported (state.ticked thread job rest).refs entry.2 := by
  have kept : ∀ entry ∈ rest, Supported (state.ticked thread job rest).refs entry.2 := by
    intro entry other
    have member : entry ∈ state.jobs := parts.mem_iff.mpr (List.mem_cons_of_mem _ other)
    exact (supported entry member).kept fun _ _ _ member => ticked_refs member
  rcases ticked_jobs state thread job rest with same | ⟨phase, stepped, same⟩
  · rwa [same]
  · rw [same]
    refine List.forall_mem_cons.mpr ⟨?_, kept⟩
    intro kind target entry old copies
    obtain rfl : phase = .acquire kind target entry old := copies
    exact absurd stepped Phase.advance_copies

end MartCommon.Experimental.StoragePool
