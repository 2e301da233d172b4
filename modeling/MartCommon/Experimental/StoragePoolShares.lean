import MartCommon.Experimental.StoragePool
import MartCommon.Library.SlotLedger
import Mathlib.Algebra.BigOperators.Group.Multiset.Basic

namespace MartCommon.Experimental.StoragePool

open Library Library.SlotLedger

variable {n : Nat} {Object Thread : Type*}

/-- A pointer holds a reference of its slot. -/
def pointerShares (ptr : Option (Fin n)) : Multiset (Fin n × Share) :=
  match ptr with
  | some entry => {(entry, .reference)}
  | none => 0

/-- The shares that the references of a pool hold. -/
def poolShares (pool : Pool Object (Reference n)) : Multiset (Fin n × Share) :=
  ((Pool.values pool).map fun reference => pointerShares reference.ptr).sum

/-- The shares that an operation holds. It is alone from the exchange on until it publishes the slot, and
again from the last decrement on until it stores `-1`. -/
def Phase.shares : Phase n Object → Multiset (Fin n × Share)
  | .scan .. | .exchange .. => 0
  | .place _ _ entry => {(entry, .vacant)}
  | .publish _ _ entry => {(entry, .occupied)}
  | .acquire _ _ _ old => pointerShares old
  | .release entry after => (entry, .reference) ::ₘ poolShares after
  | .destruct entry after => (entry, .occupied) ::ₘ poolShares after
  | .free entry after => (entry, .vacant) ::ₘ poolShares after

def Rest.shares : Rest n Object → Multiset (Fin n × Share)
  | .inl phase => phase.shares
  | .inr after => poolShares after

/-- The shares of the operations in progress. -/
def jobShares (jobs : Pool Thread (Job n Object)) : Multiset (Fin n × Share) :=
  ((Pool.values jobs).map fun job => job.phase.shares).sum

def State.shares (state : State n Object Thread) : Multiset (Fin n × Share) :=
  poolShares state.refs + jobShares state.jobs

/-- The references to a slot, in objects and in the hands of operations. -/
def State.references (state : State n Object Thread) (slot : Fin n) : Nat :=
  state.shares.count (slot, .reference)

/-- A counter does not come back to `-1` while there are fewer references than it can count. -/
def Within (state : State n Object Thread) : Prop :=
  ∀ slot, state.references slot < 2 ^ 32 - 1

instance : DecidablePred (Within : State n Object Thread → Prop) :=
  fun _ => inferInstanceAs (Decidable (∀ _, _))

@[simp] theorem poolShares_nil : poolShares ([] : Pool Object (Reference n)) = 0 := rfl

@[simp] theorem poolShares_cons (entry : Object × Reference n) (rest : Pool Object (Reference n)) :
    poolShares (entry :: rest) = pointerShares entry.2.ptr + poolShares rest := by
  simp [poolShares]

@[simp] theorem poolShares_append (first second : Pool Object (Reference n)) :
    poolShares (first ++ second) = poolShares first + poolShares second := by
  simp [poolShares]

@[simp] theorem jobShares_cons (entry : Thread × Job n Object) (rest : Pool Thread (Job n Object)) :
    jobShares (entry :: rest) = entry.2.phase.shares + jobShares rest := by
  simp [jobShares]

theorem poolShares_perm {pool rest : Pool Object (Reference n)} {entry : Object × Reference n}
    (parts : pool.Perm (entry :: rest)) :
    poolShares pool = pointerShares entry.2.ptr + poolShares rest := by
  have values : (Pool.values pool).Perm (entry.2 :: Pool.values rest) := parts.map Prod.snd
  rw [poolShares, (values.map _).sum_eq, List.map_cons, List.sum_cons]
  rfl

/-- A reference holds a share of its slot. -/
theorem mem_poolShares {pool : Pool Object (Reference n)} {object : Object} {reference : Reference n}
    {slot : Fin n} (member : (object, reference) ∈ pool) (points : reference.ptr = some slot) :
    (slot, .reference) ∈ poolShares pool := by
  obtain ⟨others, split⟩ := Pool.perm_of_mem member
  rw [poolShares_perm split, points]
  exact Multiset.mem_add.mpr (.inl (Multiset.mem_singleton_self _))

theorem jobShares_perm {jobs : Pool Thread (Job n Object)} {entry : Thread × Job n Object}
    {rest : Pool Thread (Job n Object)} (parts : jobs.Perm (entry :: rest)) :
    jobShares jobs = entry.2.phase.shares + jobShares rest := by
  have values : (Pool.values jobs).Perm (entry.2 :: Pool.values rest) := parts.map Prod.snd
  rw [jobShares, (values.map _).sum_eq, List.map_cons, List.sum_cons]
  rfl

/-- The shares of one operation and all others. -/
theorem shares_perm {state : State n Object Thread} {entry : Thread × Job n Object}
    {rest : Pool Thread (Job n Object)} (parts : state.jobs.Perm (entry :: rest)) :
    state.shares = entry.2.phase.shares + (poolShares state.refs + jobShares rest) := by
  rw [State.shares, jobShares_perm parts]
  exact add_left_comm _ _ _

/-- The shares of an operation stay in its hands or go to its results. -/
theorem shares_resume (state : State n Object Thread) (thread : Thread) (borrowed : Option Object)
    (rest : Rest n Object) : (state.resume thread borrowed rest).shares = rest.shares + state.shares := by
  cases rest with
  | inl phase =>
      simp only [State.resume, State.shares, jobShares_cons, Rest.shares]
      exact add_left_comm _ _ _
  | inr after =>
      simp only [State.resume, State.shares, poolShares_append, Rest.shares]
      exact add_assoc _ _ _

theorem shares_condDec (ptr : Option (Fin n)) (after : Pool Object (Reference n)) :
    (condDec ptr after).shares = pointerShares ptr + poolShares after := by
  cases ptr with
  | none => exact (zero_add _).symm
  | some entry => exact (Multiset.singleton_add _ _).symm

/-- The counters and the objects of the slots agree with the shares that are held. -/
def Booked (slots : Fin n → StorageSlot) (held : Multiset (Fin n × Share)) : Prop :=
  Ledger (StorageSlot.cnt ∘ slots) (StorageSlot.live ∘ slots) held

theorem cnt_update (slots : Fin n → StorageSlot) (entry : Fin n) (cnt : BitVec 32) :
    StorageSlot.cnt ∘ Function.update slots entry { slots entry with cnt := cnt } =
      Function.update (StorageSlot.cnt ∘ slots) entry cnt ∧
    StorageSlot.live ∘ Function.update slots entry { slots entry with cnt := cnt } =
      StorageSlot.live ∘ slots := by
  constructor
  · rw [Function.comp_update]
  · rw [Function.comp_update]
    exact Function.update_eq_self _ _

theorem live_update (slots : Fin n → StorageSlot) (entry : Fin n) (live : Bool) :
    StorageSlot.cnt ∘ Function.update slots entry { slots entry with live := live } =
      StorageSlot.cnt ∘ slots ∧
    StorageSlot.live ∘ Function.update slots entry { slots entry with live := live } =
      Function.update (StorageSlot.live ∘ slots) entry live := by
  constructor
  · rw [Function.comp_update]
    exact Function.update_eq_self _ _
  · rw [Function.comp_update]

/-- Each atomic step keeps the books. A copy needs a reference to count on, and the counter needs room
for one more. -/
theorem Booked.advance {slots : Fin n → StorageSlot} {thread : Thread} {phase : Phase n Object}
    {others : Multiset (Fin n × Share)} (booked : Booked slots (phase.shares + others))
    (supported : ∀ kind target entry old, phase = .acquire kind target entry old →
      (entry, .reference) ∈ phase.shares + others)
    (within : ∀ slot,
      ((phase.advance slots thread).2.2.shares + others).count (slot, .reference) < 2 ^ 32 - 1) :
    Booked (phase.advance slots thread).2.1 ((phase.advance slots thread).2.2.shares + others) := by
  cases phase with
  | scan kind target index =>
      simp only [Phase.advance]
      split
      · simp only
        split <;> exact booked
      · simpa [Rest.shares, pointerShares, Phase.shares] using booked
  | exchange kind target entry =>
      simp only [Phase.advance]
      split
      · rename_i marked
        have free : Booked slots others := by simpa [Phase.shares] using booked
        simp only [Booked, cnt_update]
        exact Ledger.claim (by decide) free marked
      · exact booked
  | place kind target entry =>
      simp only [Phase.advance, Booked, live_update]
      exact Ledger.build booked
  | publish kind target entry =>
      have alone : Booked slots ((entry, .occupied) ::ₘ others) := booked
      have published := Ledger.publish (by decide) alone
      simpa [Phase.advance, Booked, cnt_update, Rest.shares, pointerShares] using published
  | acquire kind target entry old =>
      have member := supported kind target entry old rfl
      have joined : (condDec old [(target, (⟨kind, some entry⟩ : Reference n))]).shares + others =
          (entry, .reference) ::ₘ (Phase.shares (.acquire kind target entry old) + others) := by
        rw [shares_condDec, poolShares_cons, poolShares_nil, add_zero, add_comm (pointerShares old),
          add_assoc]
        exact Multiset.singleton_add _ _
      have room := within entry
      simp only [Phase.advance, joined] at room
      simp only [Phase.advance, Booked, cnt_update, joined]
      exact Ledger.share booked member room
  | release entry after =>
      have held : Booked slots ((entry, .reference) ::ₘ (poolShares after + others)) := by
        simpa [Phase.shares] using booked
      have released := Ledger.release held
      have last : ((slots entry).cnt = 1) = ((slots entry).cnt.toNat = 1) :=
        propext ⟨fun one => by rw [one]; rfl, fun one => BitVec.eq_of_toNat_eq one⟩
      have rest : (if (slots entry).cnt.toNat = 1 then (entry, .occupied) ::ₘ (poolShares after + others)
          else poolShares after + others) =
          (Phase.advance slots thread (.release entry after)).2.2.shares + others := by
        simp only [Phase.advance, last]
        split <;> simp [Rest.shares, Phase.shares]
      rw [← rest]
      simp only [Phase.advance, Booked, cnt_update]
      exact released
  | destruct entry after =>
      have held : Booked slots ((entry, .occupied) ::ₘ (poolShares after + others)) := by
        simpa [Phase.shares] using booked
      have destroyed := Ledger.destroy held
      simpa [Phase.advance, Booked, live_update, Rest.shares, Phase.shares] using destroyed
  | free entry after =>
      have held : Booked slots ((entry, .vacant) ::ₘ (poolShares after + others)) := by
        simpa [Phase.shares] using booked
      have freed := Ledger.free held
      simpa [Phase.advance, Booked, cnt_update, Rest.shares] using freed

end MartCommon.Experimental.StoragePool
