import MartCommon.Experimental.StorageConstruction

namespace MartCommon.Experimental.StoragePool

open Library Library.SlotLedger

variable {n : Nat} {Object Thread : Type*}

/-- The slot in which a constructor threw. -/
def ThrowingEvent.lost : ThrowingEvent n Thread → Option (Fin n)
  | .regular _ => none
  | .thrown entry => some entry

/-- The slots that constructors threw in, oldest first. -/
def lostSlots (history : List (ThrowingEvent n Thread)) : List (Fin n) :=
  history.filterMap ThrowingEvent.lost

/-- The shares that nobody has in hand any more. -/
def leaks (history : List (ThrowingEvent n Thread)) : Multiset (Fin n × Share) :=
  ((lostSlots history).map fun entry => (entry, Share.vacant) : List (Fin n × Share))

@[simp] theorem lostSlots_regular (history : List (ThrowingEvent n Thread)) (event : Event n Thread) :
    lostSlots (history ++ [.regular event]) = lostSlots history := by
  simp [lostSlots, ThrowingEvent.lost]

@[simp] theorem lostSlots_thrown (history : List (ThrowingEvent n Thread)) (entry : Fin n) :
    lostSlots (history ++ [.thrown entry]) = lostSlots history ++ [entry] := by
  simp [lostSlots, ThrowingEvent.lost]

theorem leaks_regular (history : List (ThrowingEvent n Thread)) (event : Event n Thread) :
    leaks (history ++ [.regular event]) = leaks history := by
  rw [leaks, lostSlots_regular, leaks]

theorem leaks_thrown (history : List (ThrowingEvent n Thread)) (entry : Fin n) :
    leaks (history ++ [.thrown entry]) = leaks history + {(entry, .vacant)} := by
  rw [leaks, lostSlots_thrown, List.map_append, ← Multiset.coe_add, leaks]
  rfl

theorem leaks_reference (history : List (ThrowingEvent n Thread)) (slot : Fin n) :
    (leaks history).count (slot, .reference) = 0 := by
  rw [Multiset.count_eq_zero, leaks, Multiset.mem_coe, List.mem_map]
  rintro ⟨entry, -, same⟩
  cases same

theorem leaks_vacant (history : List (ThrowingEvent n Thread)) (slot : Fin n) :
    (leaks history).count (slot, .vacant) = (lostSlots history).count slot := by
  have injective : Function.Injective fun entry : Fin n => (entry, Share.vacant) :=
    fun _ _ same => congrArg Prod.fst same
  rw [leaks, ← Multiset.map_coe, ← Multiset.coe_count]
  exact Multiset.count_map_eq_count' _ _ injective slot

/-- The books agree with the shares in hand and those that leaked. -/
structure Leaking (history : List (ThrowingEvent n Thread)) (state : State n Object Thread) : Prop where
  booked : Booked state.slots (state.shares + leaks history)
  supported : ∀ entry ∈ state.jobs, Supported state.refs entry.2

theorem leaking_start : Leaking [] ({} : State n Object Thread) where
  booked := by
    have none : (State.shares ({} : State n Object Thread)) + leaks ([] : List (ThrowingEvent n Thread)) =
        0 := rfl
    rw [none]
    exact ledger_free
  supported := nofun

/-- The share of a reserved slot leaks where its constructor throws. -/
theorem Leaking.throws {history : List (ThrowingEvent n Thread)} {state : State n Object Thread}
    {thread : Thread} {borrowed : Option Object} {kind : RefKind} {target : Object} {entry : Fin n}
    {rest : Pool Thread (Job n Object)} (leaking : Leaking history state)
    (parts : state.jobs.Perm ((thread, ⟨borrowed, .place kind target entry⟩) :: rest)) :
    Leaking (history ++ [.thrown entry]) { state with jobs := rest } where
  booked := by
    have moved : state.shares + leaks history =
        State.shares { state with jobs := rest } + leaks (history ++ [.thrown entry]) := by
      have all : state.shares = {(entry, .vacant)} + State.shares { state with jobs := rest } :=
        shares_perm parts
      rw [all, leaks_thrown, add_comm {(entry, Share.vacant)}, add_assoc, add_comm (leaks history)]
    rw [← moved]
    exact leaking.booked
  supported other member :=
    leaking.supported other (parts.mem_iff.mpr (List.mem_cons_of_mem _ member))

variable [DecidableEq Object] [DecidableEq Thread]

theorem leaking_step {history : List (ThrowingEvent n Thread)} {before after : State n Object Thread}
    {action : ThrowingAction Object Thread} {event : ThrowingEvent n Thread}
    (leaking : Leaking history before)
    (stepped : ((throwingSystem n Object Thread).confine Within).step before action =
      some (event, after)) : Leaking (history ++ [event]) after := by
  obtain ⟨stepped, within⟩ := StepSystem.confine_step.mp stepped
  cases action with
  | regular action =>
      obtain ⟨⟨shown, final⟩, regular, same⟩ := Option.map_eq_some_iff.mp stepped
      obtain ⟨rfl, rfl⟩ := Prod.mk.inj same
      rcases step_cases regular with ⟨rfl, begins⟩ | ⟨thread, job, rest, taken, rfl, rfl⟩
      · refine ⟨?_, begins.supported leaking.supported⟩
        rw [leaks_regular, begins.slots, begins.shares]
        exact leaking.booked
      · have parts := Pool.take_perm taken
        refine ⟨?_, supported_tick parts leaking.supported⟩
        have member : (thread, job) ∈ before.jobs := parts.mem_iff.mpr List.mem_cons_self
        rw [leaks_regular]
        exact leaking.booked.tick_beside parts (leaks_reference history)
          (leaking.supported _ member) within
  | throws thread =>
      obtain ⟨⟨⟨borrowed, phase⟩, rest⟩, taken, thrown⟩ := Option.bind_eq_some_iff.mp stepped
      cases phase with
      | place kind target entry =>
          obtain ⟨rfl, rfl⟩ := Prod.mk.inj (Option.some.inj thrown)
          exact leaking.throws (Pool.take_perm taken)
      | scan | exchange | publish | acquire | release | destruct | free => contradiction

theorem leaking_run {history : List (ThrowingEvent n Thread)} {state : State n Object Thread}
    (run : ((throwingSystem n Object Thread).confine Within).Run {} history state) :
    Leaking history state :=
  run.invariant Leaking leaking_start fun _ _ _ _ _ leaking stepped => leaking_step leaking stepped

omit [DecidableEq Object] [DecidableEq Thread] in
/-- A slot that leaked is neither free nor in use, and it leaked once. -/
theorem Leaking.lost {history : List (ThrowingEvent n Thread)} {state : State n Object Thread}
    {entry : Fin n} (leaking : Leaking history state) (lost : entry ∈ lostSlots history) :
    state.slots entry = ⟨0, false⟩ ∧ (lostSlots history).count entry = 1 := by
  have account := leaking.booked entry
  obtain ⟨more, again⟩ := Nat.exists_eq_add_of_lt (List.count_pos_iff.mpr lost)
  have vacant : (state.shares + leaks history).count (entry, .vacant) =
      state.shares.count (entry, .vacant) + more + 1 := by
    rw [Multiset.count_add, leaks_vacant]
    omega
  rw [vacant] at account
  obtain ⟨live, -, alone, -⟩ := account.empty
  exact ⟨StorageSlot.mk.injEq .. ▸ ⟨account.reserved, live⟩, by omega⟩

/-- In every run of threads whose constructors may throw, each slot in which one threw stays reserved
for good: all others are so many less. -/
theorem store_shrinks {history : List (ThrowingEvent n Thread)} {state : State n Object Thread}
    (run : ((throwingSystem n Object Thread).confine Within).Run {} history state) :
    (∀ entry, .thrown entry ∈ history → state.slots entry = ⟨0, false⟩) ∧
      (Finset.univ.filter fun slot => state.slots slot ≠ ⟨0, false⟩).card +
        (lostSlots history).length ≤ n := by
  have leaking := leaking_run run
  constructor
  · intro entry thrown
    exact (leaking.lost (List.mem_filterMap.mpr ⟨.thrown entry, thrown, rfl⟩)).1
  · have once : (lostSlots history).Nodup :=
      List.nodup_iff_count_eq_one.mpr fun entry lost => (leaking.lost lost).2
    have apart : Disjoint (Finset.univ.filter fun slot => state.slots slot ≠ ⟨0, false⟩)
        (lostSlots history).toFinset := by
      rw [Finset.disjoint_left]
      intro slot used lost
      exact (Finset.mem_filter.mp used).2 (leaking.lost (List.mem_toFinset.mp lost)).1
    rw [← List.toFinset_card_of_nodup once, ← Finset.card_union_of_disjoint apart]
    exact (Finset.card_le_univ _).trans_eq (Fintype.card_fin n)

end MartCommon.Experimental.StoragePool
