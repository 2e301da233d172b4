import MartCommon.Experimental.StorageRun

namespace MartCommon.Experimental.StoragePool

open Library Library.SlotLedger

variable {n : Nat} {Object Thread : Type*} [DecidableEq Thread]

/-- A scan in progress found no free slot so far. -/
def FoundNone (history : List (Event n Thread)) (entry : Thread × Job n Object) : Prop :=
  ∀ kind target index, entry.2.phase = .scan kind target index →
    Scanned entry.1 index (own entry.1 history)

/-- What holds after each run: the books are right, copies have a reference to count on, a thread is in
one operation, scans found no free slot so far, and the slots keep to their lifetimes. -/
structure Consistent (history : List (Event n Thread)) (state : State n Object Thread) : Prop where
  booked : Booked state.slots state.shares
  supported : ∀ entry ∈ state.jobs, Supported state.refs entry.2
  single : (state.jobs.map Prod.fst).Nodup
  scanned : ∀ entry ∈ state.jobs, FoundNone history entry
  staged : ∀ slot, ∃ stage, lifecycle slot history = some stage ∧ stage.Matches state slot

theorem consistent_start : Consistent [] ({} : State n Object Thread) where
  booked := ledger_free
  supported := nofun
  single := .nil
  scanned := nofun
  staged _ := ⟨.free, rfl, fun _ => rfl⟩

/-- The events of the other threads do not matter for a scan. -/
theorem FoundNone.append {history : List (Event n Thread)} {event : Event n Thread}
    {entry : Thread × Job n Object} (found : FoundNone history entry)
    (foreign : event.thread ≠ some entry.1) : FoundNone (history ++ [event]) entry := by
  intro kind target index scans
  rw [own_append, if_neg foreign]
  exact found kind target index scans

/-- A slot that an event does not change stays in its stage. -/
theorem Consistent.staged_elsewhere {history : List (Event n Thread)}
    {before after : State n Object Thread} {event : Event n Thread} {slot : Fin n}
    (consistent : Consistent history before) (elsewhere : event.entry ≠ some slot)
    (counts : ∀ share, after.shares.count (slot, share) = before.shares.count (slot, share))
    (kept : ∀ entry ∈ before.jobs, ∀ other, entry.2.phase.stage entry.1 = some (slot, other) →
      entry ∈ after.jobs) :
    ∃ stage, lifecycle slot (history ++ [event]) = some stage ∧ stage.Matches after slot := by
  obtain ⟨stage, along, shown⟩ := consistent.staged slot
  refine ⟨stage, ?_, Stage.matches_same counts kept shown⟩
  rw [lifecycle_append, if_neg elsewhere]
  exact along

theorem Consistent.begin {history : List (Event n Thread)} {before after : State n Object Thread}
    (consistent : Consistent history before) (begins : Begins before after) :
    Consistent (history ++ [.silent]) after := by
  have scanned : ∀ entry ∈ before.jobs, FoundNone (history ++ [.silent]) entry := fun entry member =>
    (consistent.scanned entry member).append nofun
  have kept : ∀ entry ∈ before.jobs, entry ∈ after.jobs := by
    intro entry member
    rcases begins.jobs with same | ⟨thread, job, -, same, -⟩
    · rwa [same]
    · rw [same]
      exact List.mem_cons_of_mem _ member
  refine ⟨?_, begins.supported consistent.supported, ?_, ?_, ?_⟩
  · rw [begins.slots, begins.shares]
    exact consistent.booked
  · rcases begins.jobs with same | ⟨thread, job, idle, same, -⟩
    · rw [same]
      exact consistent.single
    · rw [same]
      exact List.nodup_cons.mpr ⟨idle, consistent.single⟩
  · rcases begins.jobs with same | ⟨thread, job, -, same, -, starts⟩
    · rwa [same]
    · rw [same]
      refine List.forall_mem_cons.mpr ⟨?_, scanned⟩
      intro kind target index scans
      obtain rfl := starts kind target index scans
      exact .start _
  · intro slot
    have quiet : (Event.silent : Event n Thread).entry ≠ some slot := nofun
    apply consistent.staged_elsewhere quiet
    · intro share
      rw [begins.shares]
    · intro entry member _ _
      exact kept entry member

section Tick

variable {history : List (Event n Thread)} {state : State n Object Thread} {thread : Thread}
  {job : Job n Object} {rest : Pool Thread (Job n Object)} (consistent : Consistent history state)
  (parts : state.jobs.Perm ((thread, job) :: rest))

include consistent parts

/-- No other operation is in the thread. -/
theorem Consistent.tick_single :
    thread ∉ rest.map Prod.fst ∧ ((state.ticked thread job rest).jobs.map Prod.fst).Nodup := by
  have single : ((thread, job) :: rest).map Prod.fst |>.Nodup :=
    (parts.map Prod.fst).nodup_iff.mp consistent.single
  refine ⟨(List.nodup_cons.mp single).1, ?_⟩
  rcases ticked_jobs state thread job rest with same | ⟨phase, -, same⟩
  · rw [same]
    exact (List.nodup_cons.mp single).2
  · rw [same]
    exact single

theorem Consistent.tick_scanned :
    ∀ entry ∈ (state.ticked thread job rest).jobs,
      FoundNone (history ++ [(job.phase.advance state.slots thread).1]) entry := by
  have scanned : ∀ entry ∈ rest,
      FoundNone (history ++ [(job.phase.advance state.slots thread).1]) entry := by
    intro entry other
    have member : entry ∈ state.jobs := parts.mem_iff.mpr (List.mem_cons_of_mem _ other)
    apply (consistent.scanned entry member).append
    rw [Phase.advance_thread]
    intro same
    have there : thread ∈ rest.map Prod.fst :=
      List.mem_map.mpr ⟨entry, other, (Option.some.inj same).symm⟩
    exact (consistent.tick_single parts).1 there
  rcases ticked_jobs state thread job rest with same | ⟨phase, stepped, same⟩
  · rwa [same]
  · rw [same]
    refine List.forall_mem_cons.mpr ⟨?_, scanned⟩
    intro kind target index scans
    obtain rfl : phase = .scan kind target index := scans
    rw [own_append, if_pos Phase.advance_thread]
    rcases Phase.advance_scan stepped with rfl | ⟨before, inside, cnt, rfl, along, loaded, busy⟩
    · exact .start _
    · have member : (thread, job) ∈ state.jobs := parts.mem_iff.mpr List.mem_cons_self
      rw [loaded]
      exact .pass inside (consistent.scanned _ member kind target before along) busy

theorem Consistent.tick_staged (slot : Fin n) :
    ∃ stage, lifecycle slot (history ++ [(job.phase.advance state.slots thread).1]) = some stage ∧
      stage.Matches (state.ticked thread job rest) slot := by
  have member : (thread, job) ∈ state.jobs := parts.mem_iff.mpr List.mem_cons_self
  by_cases changed : (job.phase.advance state.slots thread).1.entry = some slot
  · obtain ⟨stage, stage', now, next, later⟩ :=
      consistent.booked.tick_stage parts (consistent.supported _ member) changed
    obtain ⟨known, along, shown⟩ := consistent.staged slot
    obtain rfl := consistent.booked.stage_eq shown now
    refine ⟨stage', ?_, later⟩
    rw [lifecycle_append, if_pos changed, along]
    exact next
  · apply consistent.staged_elsewhere changed
    · intro share
      simp only [ticked_shares, shares_perm parts, Multiset.count_add, Phase.advance_elsewhere changed]
    · intro entry member other alone
      rcases List.mem_cons.mp (parts.mem_iff.mp member) with rfl | member
      · exact absurd (Phase.stage_entry alone) changed
      · exact ticked_mem member

theorem Consistent.tick (within : Within (state.ticked thread job rest)) :
    Consistent (history ++ [(job.phase.advance state.slots thread).1])
      (state.ticked thread job rest) where
  booked := consistent.booked.tick parts
    (consistent.supported _ (parts.mem_iff.mpr List.mem_cons_self)) within
  supported := supported_tick parts consistent.supported
  single := (consistent.tick_single parts).2
  scanned := consistent.tick_scanned parts
  staged := consistent.tick_staged parts

end Tick

variable [DecidableEq Object]

/-- Every step keeps the store consistent. -/
theorem consistent_step {history : List (Event n Thread)} {before after : State n Object Thread}
    {action : Action Object Thread} {event : Event n Thread} (consistent : Consistent history before)
    (stepped : ((system n Object Thread).confine Within).step before action = some (event, after)) :
    Consistent (history ++ [event]) after := by
  obtain ⟨stepped, within⟩ := StepSystem.confine_step.mp stepped
  rcases step_cases stepped with ⟨rfl, begins⟩ | ⟨thread, job, rest, taken, rfl, rfl⟩
  · exact consistent.begin begins
  · exact consistent.tick (Pool.take_perm taken) within

theorem consistent_run {history : List (Event n Thread)} {state : State n Object Thread}
    (run : ((system n Object Thread).confine Within).Run {} history state) :
    Consistent history state :=
  run.invariant Consistent consistent_start fun _ _ _ _ _ consistent stepped =>
    consistent_step consistent stepped

/-- The store is sound in every run in which the counters have room for the references. -/
theorem store_sound {history : List (Event n Thread)} {state : State n Object Thread}
    (run : ((system n Object Thread).confine Within).Run {} history state) : Sound history state := by
  have consistent := consistent_run run
  refine ⟨?_, ?_, ?_, ?_⟩
  · intro slot
    obtain ⟨stage, along, shown⟩ := consistent.staged slot
    exact ⟨stage, along, shown, consistent.booked.live_eq shown⟩
  · rintro slot first second here there ⟨stage, alone⟩ ⟨stage', alone'⟩
    exact ⟨consistent.booked.exclusive here there alone alone', (consistent.booked.alone here alone).1⟩
  · intro object reference slot member points
    have held : (slot, .reference) ∈ state.shares :=
      Multiset.mem_add.mpr (.inl (mem_poolShares member points))
    exact (consistent.booked.counted (Multiset.count_pos.mpr held)).1
  · intro thread earlier later parts
    obtain ⟨before, action, after, early, stepped⟩ := run.split parts
    have consistent := consistent_run early
    rcases step_cases (StepSystem.confine_step.mp stepped).1 with
      ⟨same, -⟩ | ⟨other, job, rest, taken, failed, -⟩
    · contradiction
    · obtain ⟨rfl, kind, target, index, scans, beyond⟩ := Phase.advance_failed failed.symm
      have member : (other, job) ∈ before.jobs :=
        (Pool.take_perm taken).mem_iff.mpr List.mem_cons_self
      have scanned := consistent.scanned _ member kind target index scans
      have ends : index = n := Nat.le_antisymm scanned.index_le beyond
      rw [ends] at scanned
      exact scanned

/-- Two threads share an object in a store with one slot, a second construction fails, and the last
reference frees the slot. -/
def fullActions : List (Action Nat Bool) :=
  [.construct false .constRef 0, .tick false, .tick false, .tick false, .tick false,
    .copyConstruct true 1 0, .tick true, .construct true .ref 2, .tick true, .tick true,
    .drop false 0, .tick false, .drop true 1, .tick true, .tick true, .tick true]

theorem store_sound_full :
    ∃ history state, ((system 1 Nat Bool).confine Within).execute {} fullActions =
        some (history, state) ∧ .allocFailed true ∈ history ∧
      lifecycle 0 history = some .free ∧ Sound history state := by
  have executed : (((system 1 Nat Bool).confine Within).execute {} fullActions).any (fun result =>
      .allocFailed true ∈ result.1 ∧ lifecycle 0 result.1 = some .free) = true := by
    decide +kernel
  obtain ⟨⟨history, state⟩, same, facts⟩ := (Option.any_eq_true _ _).mp executed
  obtain ⟨failed, free⟩ := of_decide_eq_true facts
  exact ⟨history, state, same, failed, free, store_sound (StepSystem.run_of_execute fullActions same)⟩

/-- The references `0` to `last` to one slot. -/
def sharers : Nat → Pool Nat (Reference 1)
  | 0 => [(0, ⟨.constRef, some 0⟩)]
  | last + 1 => (last + 1, ⟨.constRef, some 0⟩) :: sharers last

/-- A store with one slot that these references share. The counter is an `int`. -/
def crowded (last : Nat) : State 1 Nat Unit where
  slots _ := ⟨BitVec.ofNat 32 (last + 1), true⟩
  refs := sharers last

theorem sharers_fresh {last name : Nat} (member : name ∈ (sharers last).map Prod.fst) : name ≤ last := by
  induction last with
  | zero => simpa [sharers] using member
  | succ last ih =>
      rcases List.mem_cons.mp member with rfl | member
      · exact le_rfl
      · exact Nat.le_succ_of_le (ih member)

theorem sharers_newest (last : Nat) :
    ∃ others, Pool.take last (sharers last) = some (⟨.constRef, some 0⟩, others) := by
  cases last with
  | zero => exact ⟨[], rfl⟩
  | succ last => exact ⟨sharers last, if_pos rfl⟩

theorem crowded_fresh (last : Nat) : last + 1 ∉ (crowded last).names := by
  intro member
  have small : last + 1 ≤ last :=
    sharers_fresh (by simpa [State.names, crowded, Pool.values] using member)
  exact absurd small (Nat.not_succ_le_self last)

/-- One more reference is copied from the newest one. -/
theorem crowded_copy (last : Nat) :
    (system 1 Nat Unit).execute (crowded last) [.copyConstruct () (last + 1) last, .tick ()] =
      some ([.silent, .incremented () 0], crowded (last + 1)) := by
  obtain ⟨others, newest⟩ := sharers_newest last
  have idle : (crowded last).idle () := nofun
  have found : (crowded last).read last = some ⟨.constRef, some 0⟩ := by
    rw [State.read, crowded, newest]
    rfl
  have copied : (system 1 Nat Unit).step (crowded last) (.copyConstruct () (last + 1) last) =
      some (.silent, (crowded last).resume () (some last)
        (.inl (.acquire .constRef (last + 1) 0 none))) := by
    simp only [system, step, if_pos (And.intro idle (crowded_fresh last)), copyConstruct, found, Option.map_some]
  have counted : (system 1 Nat Unit).step ((crowded last).resume () (some last)
      (.inl (.acquire .constRef (last + 1) 0 none))) (.tick ()) =
      some (.incremented () 0, crowded (last + 1)) := by
    simp only [system, step, State.resume, crowded, Pool.take, if_true, Option.map_some, Phase.advance,
      condDec, List.singleton_append, sharers]
    rw [Function.update_eq_const_of_subsingleton, BitVec.ofNat_add (last + 1) 1]
    rfl
  simp only [StepSystem.execute, copied, counted]

theorem crowded_run (last : Nat) :
    ∃ history, (system 1 Nat Unit).Run {} history (crowded last) := by
  induction last with
  | zero =>
      have constructed : (system 1 Nat Unit).execute {} [.construct () .constRef 0, .tick (), .tick (),
          .tick (), .tick ()] = some ([.silent, .loaded () 0 (-1), .exchanged () 0 true,
            .constructed () 0, .incremented () 0], crowded 0) := by
        have idle : ({} : State 1 Nat Unit).idle () := nofun
        have fresh : 0 ∉ ({} : State 1 Nat Unit).names := nofun
        simp only [StepSystem.execute, system, step, if_pos (And.intro idle fresh), State.resume, Pool.take,
          Phase.advance, if_true, Option.map_some, Nat.lt_one_iff, dif_pos,
          Function.update_eq_const_of_subsingleton, Function.const_apply]
        rfl
      exact ⟨_, StepSystem.run_of_execute _ constructed⟩
  | succ last ih =>
      obtain ⟨history, run⟩ := ih
      exact ⟨_, run.execute _ (crowded_copy last)⟩

/-- A counter that wrapped around to `-1` makes a slot with references look free. -/
theorem crowded_claim {last : Nat} (wrapped : BitVec.ofNat 32 (last + 1) = -1) :
    ∃ events state, (system 1 Nat Unit).execute (crowded last)
        [.construct () .constRef (last + 1), .tick (), .tick ()] = some (events, state) ∧
      state.jobs = [((), ⟨none, .place .constRef (last + 1) 0⟩)] ∧ state.refs = sharers last := by
  have idle : (crowded last).idle () := nofun
  simp only [StepSystem.execute, system, step, if_pos (And.intro idle (crowded_fresh last))]
  simp only [State.resume, crowded, Pool.take, Phase.advance, wrapped, if_true, Option.map_some,
    Nat.lt_one_iff, dif_pos, Function.update_eq_const_of_subsingleton]
  exact ⟨_, _, rfl, rfl, rfl⟩

/-- Nothing bounds the references, and with 2^32 - 1 of them the store constructs over a live object. -/
theorem store_sound_overflow :
    ¬ ∀ (history : List (Event 1 Unit)) (state : State 1 Nat Unit),
      (system 1 Nat Unit).Run {} history state → Sound history state := by
  intro sound
  obtain ⟨last, wrapped⟩ : ∃ last, BitVec.ofNat 32 (last + 1) = -1 := ⟨2 ^ 32 - 2, by decide⟩
  obtain ⟨history, run⟩ := crowded_run last
  obtain ⟨events, state, executed, jobs, refs⟩ := crowded_claim wrapped
  have placing : ((), ⟨none, .place .constRef (last + 1) 0⟩) ∈ state.jobs := by
    rw [jobs]
    exact List.mem_cons_self
  have none : state.references 0 = 0 :=
    ((sound _ _ (run.execute _ executed)).exclusive 0 _ _ placing placing ⟨_, rfl⟩ ⟨_, rfl⟩).2
  obtain ⟨others, newest⟩ := sharers_newest last
  have member : (last, (⟨.constRef, some 0⟩ : Reference 1)) ∈ state.refs := by
    rw [refs]
    exact (Pool.take_perm newest).mem_iff.mpr List.mem_cons_self
  have share : ((0 : Fin 1), Share.reference) ∈ state.shares :=
    Multiset.mem_add.mpr (.inl (mem_poolShares member rfl))
  exact (Multiset.count_pos.mpr share).ne' none

end MartCommon.Experimental.StoragePool
