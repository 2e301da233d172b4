import Mathlib.Data.BitVec
import Mathlib.Data.Multiset.AddSub

namespace MartCommon.Library.SlotLedger

/-- How somebody holds a slot: with a counted reference, or alone, while the slot has no object or while
it has one. -/
inductive Share where
  | reference
  | vacant
  | occupied
  deriving DecidableEq, Repr

variable {w : Nat} {count : BitVec w} {live : Bool} {references vacant occupied : Nat}

/-- A slot is free, or one holder has it alone, or several share it. The counter is `-1` for a free slot,
zero for one that is held alone, and else the number of references. -/
inductive Account (count : BitVec w) : (live : Bool) → (references vacant occupied : Nat) → Prop where
  | free (marked : count = -1) : Account count false 0 0 0
  | vacant (zero : count = 0) : Account count false 0 1 0
  | occupied (zero : count = 0) : Account count true 0 0 1
  | shared {references : Nat} (positive : 0 < references) (small : references < 2 ^ w - 1)
      (exact : count.toNat = references) : Account count true references 0 0

theorem toNat_neg_one : (-1 : BitVec w).toNat = 2 ^ w - 1 := by
  have ones : (-1 : BitVec w) = BitVec.allOnes w := BitVec.neg_one_eq_allOnes
  rw [ones, BitVec.toNat_allOnes]

theorem toNat_zero : (0 : BitVec w).toNat = 0 := BitVec.toNat_zero

theorem toNat_one (room : 1 < 2 ^ w) : (1 : BitVec w).toNat = 1 := Nat.mod_eq_of_lt room

theorem toNat_succ (small : count.toNat + 1 < 2 ^ w) : (count + 1).toNat = count.toNat + 1 := by
  have one : (1 : BitVec w).toNat = 1 := toNat_one (by omega)
  rw [BitVec.toNat_add, one, Nat.mod_eq_of_lt small]

theorem toNat_pred (positive : 0 < count.toNat) : (count - 1).toNat = count.toNat - 1 := by
  have bound := count.isLt
  have one : (1 : BitVec w).toNat = 1 := toNat_one (by omega)
  rw [BitVec.toNat_sub_of_le (BitVec.le_def.mpr (one ▸ positive)), one]

namespace Account

/-- A slot that is held alone without an object has no references. -/
theorem empty (account : Account count live references (vacant + 1) occupied) :
    live = false ∧ references = 0 ∧ vacant = 0 ∧ occupied = 0 := by
  cases account
  exact ⟨rfl, rfl, rfl, rfl⟩

theorem reserved (account : Account count live references (vacant + 1) occupied) : count = 0 := by
  cases account with
  | vacant zero => exact zero

/-- A slot that is held alone with its object has no references. -/
theorem alone (account : Account count live references vacant (occupied + 1)) :
    live = true ∧ references = 0 ∧ vacant = 0 ∧ occupied = 0 := by
  cases account
  exact ⟨rfl, rfl, rfl, rfl⟩

/-- One holder at most has a slot alone, and then there are no references. -/
theorem one (account : Account count live references vacant occupied) :
    vacant + occupied ≤ 1 ∧ (0 < vacant + occupied → references = 0) := by
  cases account <;> simp

theorem unheld (account : Account count live 0 0 0) : live = false := by
  cases account with
  | free => rfl
  | shared positive => exact absurd positive (lt_irrefl 0)

/-- A slot with references has its object, and its counter is exact. -/
theorem referenced (account : Account count live (references + 1) vacant occupied) :
    live = true ∧ count.toNat = references + 1 ∧ vacant = 0 ∧ occupied = 0 := by
  cases account with
  | shared positive small exact => exact ⟨rfl, exact, rfl, rfl⟩

/-- A counter of `-1` belongs to a free slot. -/
theorem marked (wide : 0 < w) (account : Account (-1 : BitVec w) live references vacant occupied) :
    live = false ∧ references = 0 ∧ vacant = 0 ∧ occupied = 0 := by
  cases account with
  | free => exact ⟨rfl, rfl, rfl, rfl⟩
  | vacant zero | occupied zero =>
      have same := congrArg BitVec.toNat zero
      have large := Nat.one_lt_two_pow wide.ne'
      rw [toNat_neg_one, toNat_zero] at same
      omega
  | shared positive small exact =>
      rw [toNat_neg_one] at exact
      omega

theorem claim (wide : 0 < w) (account : Account (-1 : BitVec w) live references vacant occupied) :
    Account (0 : BitVec w) live references (vacant + 1) occupied := by
  obtain ⟨rfl, rfl, rfl, rfl⟩ := account.marked wide
  exact .vacant rfl

theorem build (account : Account count live references (vacant + 1) occupied) :
    Account count true references vacant (occupied + 1) := by
  cases account with
  | vacant zero => exact .occupied zero

theorem destroy (account : Account count live references vacant (occupied + 1)) :
    Account count false references (vacant + 1) occupied := by
  cases account with
  | occupied zero => exact .vacant zero

theorem free_again (account : Account count live references (vacant + 1) occupied) :
    Account (-1 : BitVec w) live references vacant occupied := by
  cases account with
  | vacant zero => exact .free rfl

/-- The holder gives the slot away with a first reference. -/
theorem publish (wide : 1 < w) (account : Account count live references vacant (occupied + 1)) :
    Account (count + 1) live (references + 1) vacant occupied := by
  cases account with
  | occupied zero =>
      have large : 2 ^ 2 ≤ 2 ^ w := Nat.pow_le_pow_right Nat.two_pos wide
      have none : count.toNat = 0 := by rw [zero, toNat_zero]
      refine .shared Nat.one_pos (by omega) ?_
      rw [toNat_succ (by omega), none]

/-- A reference is copied. -/
theorem share (small : references + 2 < 2 ^ w - 1)
    (account : Account count live (references + 1) vacant occupied) :
    Account (count + 1) live (references + 2) vacant occupied := by
  cases account with
  | shared positive _ exact =>
      refine .shared (Nat.succ_pos _) small ?_
      rw [toNat_succ (by omega), exact]

/-- Who gives up the last reference holds the slot alone. -/
theorem release (account : Account count live (references + 1) vacant occupied) :
    if count.toNat = 1 then Account (count - 1) live references vacant (occupied + 1)
    else Account (count - 1) live references vacant occupied := by
  cases account with
  | shared positive small exact =>
      have nonzero : 0 < count.toNat := by omega
      have pred := toNat_pred nonzero
      split
      · obtain rfl : references = 0 := by omega
        refine .occupied (BitVec.eq_of_toNat_eq ?_)
        rw [pred, exact, toNat_zero]
      · exact .shared (by omega) (by omega) (by omega)

end Account

variable {Key : Type*} [DecidableEq Key]

/-- Each slot has an account of the shares that are held of it. -/
def Ledger (count : Key → BitVec w) (live : Key → Bool) (held : Multiset (Key × Share)) : Prop :=
  ∀ slot, Account (count slot) (live slot) (held.count (slot, .reference))
    (held.count (slot, .vacant)) (held.count (slot, .occupied))

variable {before after : Key → BitVec w} {lived lives : Key → Bool}
  {old new others : Multiset (Key × Share)} {slot : Key}

/-- An update of one slot exchanges shares of it, and all other slots keep their accounts. -/
theorem Ledger.update (slot : Key) (ledger : Ledger before lived old)
    (counts : ∀ other, other ≠ slot → after other = before other)
    (states : ∀ other, other ≠ slot → lives other = lived other)
    (shares : ∀ other share, other ≠ slot → new.count (other, share) = old.count (other, share))
    (account : Account (after slot) (lives slot) (new.count (slot, .reference))
      (new.count (slot, .vacant)) (new.count (slot, .occupied))) :
    Ledger after lives new := by
  intro other
  by_cases same : other = slot
  · rw [same]
    exact account
  · rw [counts other same, states other same, shares other _ same, shares other _ same,
      shares other _ same]
    exact ledger other

/-- Shares of one slot do not count for another one. -/
theorem count_cons_elsewhere {other : Key} (different : other ≠ slot) (own share : Share) :
    ((slot, own) ::ₘ others).count (other, share) = others.count (other, share) :=
  Multiset.count_cons_of_ne (fun same => different (congrArg Prod.fst same)) _

theorem Ledger.claim (wide : 0 < w) (ledger : Ledger before lived others)
    (marked : before slot = -1) :
    Ledger (Function.update before slot 0) lived ((slot, .vacant) ::ₘ others) := by
  have account := ledger slot
  rw [marked] at account
  refine ledger.update slot (fun _ different => Function.update_of_ne different _ _)
    (fun _ _ => rfl) (fun _ _ different => count_cons_elsewhere different _ _) ?_
  simpa [Multiset.count_cons] using account.claim wide

theorem Ledger.build (ledger : Ledger before lived ((slot, .vacant) ::ₘ others)) :
    Ledger before (Function.update lived slot true) ((slot, .occupied) ::ₘ others) := by
  have account := ledger slot
  refine ledger.update slot (fun _ _ => rfl)
    (fun _ different => Function.update_of_ne different _ _) (fun _ _ different => ?_) ?_
  · rw [count_cons_elsewhere different, count_cons_elsewhere different]
  · simp only [Multiset.count_cons] at account
    simpa [Multiset.count_cons] using Account.build (by simpa using account)

theorem Ledger.destroy (ledger : Ledger before lived ((slot, .occupied) ::ₘ others)) :
    Ledger before (Function.update lived slot false) ((slot, .vacant) ::ₘ others) := by
  have account := ledger slot
  refine ledger.update slot (fun _ _ => rfl)
    (fun _ different => Function.update_of_ne different _ _) (fun _ _ different => ?_) ?_
  · rw [count_cons_elsewhere different, count_cons_elsewhere different]
  · simpa [Multiset.count_cons] using Account.destroy (by simpa [Multiset.count_cons] using account)

theorem Ledger.free (ledger : Ledger before lived ((slot, .vacant) ::ₘ others)) :
    Ledger (Function.update before slot (-1)) lived others := by
  have account := ledger slot
  refine ledger.update slot (fun _ different => Function.update_of_ne different _ _)
    (fun _ _ => rfl) (fun _ _ different => (count_cons_elsewhere different _ _).symm) ?_
  rw [Function.update_self]
  exact Account.free_again (by simpa [Multiset.count_cons] using account)

theorem Ledger.publish (wide : 1 < w) (ledger : Ledger before lived ((slot, .occupied) ::ₘ others)) :
    Ledger (Function.update before slot (before slot + 1)) lived ((slot, .reference) ::ₘ others) := by
  have account := ledger slot
  refine ledger.update slot (fun _ different => Function.update_of_ne different _ _)
    (fun _ _ => rfl) (fun _ _ different => ?_) ?_
  · rw [count_cons_elsewhere different, count_cons_elsewhere different]
  · simpa [Multiset.count_cons] using
      Account.publish wide (by simpa [Multiset.count_cons] using account)

/-- A copy needs another reference to the slot. -/
theorem Ledger.share (ledger : Ledger before lived others) (member : (slot, .reference) ∈ others)
    (small : ((slot, .reference) ::ₘ others).count (slot, .reference) < 2 ^ w - 1) :
    Ledger (Function.update before slot (before slot + 1)) lived ((slot, .reference) ::ₘ others) := by
  obtain ⟨rest, rfl⟩ := Multiset.exists_cons_of_mem member
  have account := ledger slot
  refine ledger.update slot (fun _ different => Function.update_of_ne different _ _)
    (fun _ _ => rfl) (fun _ _ different => count_cons_elsewhere different _ _) ?_
  simpa [Multiset.count_cons] using Account.share (by simpa [Multiset.count_cons] using small)
    (by simpa [Multiset.count_cons] using account)

/-- Who gives up the last reference holds the slot alone. -/
theorem Ledger.release (ledger : Ledger before lived ((slot, .reference) ::ₘ others)) :
    Ledger (Function.update before slot (before slot - 1)) lived
      (if (before slot).toNat = 1 then (slot, .occupied) ::ₘ others else others) := by
  have account : Account (before slot) (lived slot) (others.count (slot, .reference) + 1)
      (others.count (slot, .vacant)) (others.count (slot, .occupied)) := by
    simpa [Multiset.count_cons] using ledger slot
  have released := account.release
  split at released
  · rename_i last
    rw [if_pos last]
    refine ledger.update slot (fun _ different => Function.update_of_ne different _ _)
      (fun _ _ => rfl) (fun _ _ different => ?_) ?_
    · rw [count_cons_elsewhere different, count_cons_elsewhere different]
    · simpa [Multiset.count_cons] using released
  · rename_i more
    rw [if_neg more]
    refine ledger.update slot (fun _ different => Function.update_of_ne different _ _)
      (fun _ _ => rfl) (fun _ _ different => (count_cons_elsewhere different _ _).symm) ?_
    rw [Function.update_self]
    exact released

/-- No share of any slot is held at first. -/
theorem ledger_free : Ledger (fun _ : Key => (-1 : BitVec w)) (fun _ => false) 0 := by
  intro slot
  simp only [Multiset.count_zero]
  exact .free rfl

end MartCommon.Library.SlotLedger
