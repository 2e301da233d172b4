import MartCommon.Library.RefCountMachine

namespace MartCommon.Library.RefCount

variable {Content Result : Type}

/-- The ledger of a memory: each counter is the number of counted handles on its block, modulo the
range of the counter, and a block that is not yet allocated has left no trace. -/
structure Ledger (modulus : Nat) (memory : Memory Content) (tokens dues : Multiset Block) :
    Prop where
  fresh : ∀ block, memory.next ≤ block → memory.content block = none ∧ block ∉ tokens ∧
    block ∉ dues ∧ memory.freed block = 0
  counted : ∀ block, block < memory.next → memory.count block = tokens.count block % modulus

/-- Each block that has a counted handle is neither given back nor due, and each other block is either
due or was given back once. -/
def Exclusive (memory : Memory Content) (tokens dues : Multiset Block) : Prop :=
  ∀ block, block < memory.next →
    memory.freed block + dues.count block = if block ∈ tokens then 0 else 1

variable {modulus : Nat} {memory memory' : Memory Content} {held held' rest dues : Multiset Block}
  {program program' : Program Content Result}
  {post : (Block → Option Content) → Result → Multiset Block → Prop}

section Updates

variable {tokens : Multiset Block} {block : Block}

/-- A block with a counted handle is allocated. -/
theorem Ledger.allocated (ledger : Ledger modulus memory tokens dues) (member : block ∈ tokens) :
    block < memory.next := by
  by_contra beyond
  exact (ledger.fresh block (not_lt.mp beyond)).2.1 member

/-- A new block enters the ledger with its first handle. -/
theorem Ledger.alloc (ledger : Ledger modulus memory tokens dues) (large : 1 < modulus)
    (content : Content) :
    Ledger modulus (memory.alloc content) (memory.next ::ₘ tokens) dues where
  fresh block beyond := by
    have other : block ≠ memory.next := by
      rintro rfl
      exact absurd beyond (Nat.not_succ_le_self _)
    obtain ⟨unstored, unheld, undue, kept⟩ := ledger.fresh block (Nat.le_of_succ_le beyond)
    refine ⟨?_, ?_, undue, kept⟩
    · simpa [Memory.alloc, Function.update_of_ne other] using unstored
    · simp [other, unheld]
  counted block within := by
    by_cases same : block = memory.next
    · subst same
      have none_yet := (ledger.fresh memory.next (Nat.le_refl _)).2.1
      simp [Memory.alloc, Multiset.count_eq_zero_of_notMem none_yet, Nat.mod_eq_of_lt large]
    · have before := ledger.counted block (Nat.lt_of_le_of_ne (Nat.le_of_lt_succ within) same)
      simpa [Memory.alloc, Function.update_of_ne same, Multiset.count_cons_of_ne same] using before

/-- Handles that are counted at once enter the ledger together. -/
theorem Ledger.fetchAdd (ledger : Ledger modulus memory tokens dues) (member : block ∈ tokens)
    (amount : Nat) :
    Ledger modulus (memory.setCount block ((memory.count block + amount) % modulus))
      (tokens + Multiset.replicate amount block) dues where
  fresh other beyond := by
    have apart : other ≠ block := by
      rintro rfl
      exact absurd (ledger.allocated member) (not_lt.mpr beyond)
    obtain ⟨unstored, unheld, rest⟩ := ledger.fresh other beyond
    refine ⟨unstored, ?_, rest⟩
    simp [unheld, Multiset.mem_replicate, apart]
  counted other within := by
    have before := ledger.counted other within
    by_cases same : other = block
    · subst same
      simp [Memory.setCount, before]
    · simpa [Memory.setCount, Function.update_of_ne same, Multiset.count_replicate,
        Ne.symm same] using before

/-- A handle that goes away leaves the ledger. -/
theorem Ledger.fetchSub (ledger : Ledger modulus memory tokens dues) (member : block ∈ tokens)
    (positive : 0 < modulus) {pending : Option Block}
    (owed : ∀ other ∈ pending, other = block) :
    Ledger modulus (memory.setCount block ((memory.count block + (modulus - 1)) % modulus))
      (tokens.erase block) (Handle.tokens pending + dues) where
  fresh other beyond := by
    have apart : other ≠ block := by
      rintro rfl
      exact absurd (ledger.allocated member) (not_lt.mpr beyond)
    obtain ⟨unstored, unheld, undue, kept⟩ := ledger.fresh other beyond
    refine ⟨unstored, ?_, ?_, kept⟩
    · exact fun still => unheld (Multiset.mem_of_mem_erase still)
    · cases pending with
      | none => simpa using undue
      | some due =>
          have named := owed due rfl
          simp [named, apart, undue]
  counted other within := by
    have before := ledger.counted other within
    by_cases same : other = block
    · subst same
      have some_left : 0 < tokens.count other := Multiset.count_pos.mpr member
      have shifted : tokens.count other + (modulus - 1) = tokens.count other - 1 + modulus := by
        omega
      simp [Memory.setCount, before, shifted]
    · simpa [Memory.setCount, Function.update_of_ne same, Multiset.count_erase_of_ne same]
        using before

/-- A block that is given back is due no more. -/
theorem Ledger.giveBack (ledger : Ledger modulus memory tokens (block ::ₘ dues)) :
    Ledger modulus (memory.giveBack block) tokens dues where
  fresh other beyond := by
    obtain ⟨unstored, unheld, undue, kept⟩ := ledger.fresh other beyond
    have apart : other ≠ block := by
      rintro rfl
      simp at undue
    refine ⟨unstored, unheld, fun still => undue (Multiset.mem_cons_of_mem still), ?_⟩
    simpa [Memory.giveBack, Function.update_of_ne apart] using kept
  counted := ledger.counted

/-- A new block has its handle and is neither due nor given back. -/
theorem Exclusive.alloc (exclusive : Exclusive memory tokens dues)
    (ledger : Ledger modulus memory tokens dues) (content : Content) :
    Exclusive (memory.alloc content) (memory.next ::ₘ tokens) dues := by
  intro block within
  by_cases same : block = memory.next
  · subst same
    obtain ⟨-, -, undue, kept⟩ := ledger.fresh memory.next (Nat.le_refl _)
    simp [Memory.alloc, kept, Multiset.count_eq_zero_of_notMem undue]
  · have before := exclusive block (Nat.lt_of_le_of_ne (Nat.le_of_lt_succ within) same)
    simpa [Memory.alloc, same] using before

/-- More handles on a block with a handle change nothing about what is due. -/
theorem Exclusive.fetchAdd (exclusive : Exclusive memory tokens dues) (member : block ∈ tokens)
    (amount count : Nat) :
    Exclusive (memory.setCount block count) (tokens + Multiset.replicate amount block) dues := by
  intro other within
  have before := exclusive other within
  by_cases same : other = block
  · subst same
    simpa [Memory.setCount, member] using before
  · simpa [Memory.setCount, Multiset.mem_replicate, same] using before

/-- The handle that finds the counter at one was the last, and its block is due from then on. -/
theorem Exclusive.fetchSub (exclusive : Exclusive memory tokens dues)
    (ledger : Ledger modulus memory tokens dues) (member : block ∈ tokens)
    (bounded : tokens.count block < modulus) (count : Nat) :
    Exclusive (memory.setCount block count) (tokens.erase block)
      (Handle.tokens (if memory.count block = 1 then some block else none) + dues) := by
  intro other within
  have before := exclusive other within
  have exact_count : memory.count block = tokens.count block := by
    rw [ledger.counted block (ledger.allocated member), Nat.mod_eq_of_lt bounded]
  have last : block ∈ tokens.erase block ↔ memory.count block ≠ 1 := by
    have some_left : 0 < tokens.count block := Multiset.count_pos.mpr member
    rw [← Multiset.count_pos, Multiset.count_erase_self, exact_count]
    omega
  by_cases same : other = block
  · subst same
    rw [if_pos member] at before
    by_cases single : memory.count other = 1
    · have gone : other ∉ tokens.erase other := fun still => (last.mp still) single
      rw [if_neg gone, if_pos single]
      simp only [Memory.setCount, Handle.tokens_some, Multiset.count_add,
        Multiset.count_singleton_self]
      omega
    · rw [if_pos (last.mpr single), if_neg single]
      simpa [Memory.setCount] using before
  · have unrelated : Multiset.count other
        (Handle.tokens (if memory.count block = 1 then some block else none)) = 0 := by
      rw [Handle.count_tokens, if_neg]
      split
      · simpa using Ne.symm same
      · simp
    simpa [Memory.setCount, unrelated, Multiset.mem_erase_of_ne same] using before

/-- A block that was given back was given back once, and it has no handle and is due no more. -/
theorem Exclusive.given (exclusive : Exclusive memory tokens dues)
    (ledger : Ledger modulus memory tokens dues) (kept : 0 < memory.freed block) :
    memory.freed block = 1 ∧ block ∉ tokens ∧ block ∉ dues := by
  have allocated : block < memory.next := by
    by_contra beyond
    have untouched := (ledger.fresh block (not_lt.mp beyond)).2.2.2
    omega
  have fate := exclusive block allocated
  split at fate
  · omega
  · rename_i unheld
    have undue : dues.count block = 0 := by omega
    exact ⟨by omega, unheld, Multiset.count_eq_zero.mp undue⟩

/-- A due block without a handle is given back once. -/
theorem Exclusive.giveBack (exclusive : Exclusive memory tokens (block ::ₘ dues)) :
    Exclusive (memory.giveBack block) tokens dues := by
  intro other within
  have before := exclusive other within
  by_cases same : other = block
  · subst same
    simp only [Memory.giveBack, Function.update_self, Multiset.count_cons_self] at before ⊢
    omega
  · simpa [Memory.giveBack, Function.update_of_ne same, Multiset.count_cons_of_ne same] using before

end Updates

/-- An update never changes a content that is stored. -/
theorem Ledger.extends {tokens : Multiset Block} (ledger : Ledger modulus memory tokens dues)
    (advanced : advance memory modulus held program = some (memory', held', program')) :
    Extends memory.content memory'.content := by
  cases program with
  | done result => contradiction
  | abort => contradiction
  | alloc content next =>
      simp only [RefCount.advance, Option.some.injEq, Prod.mk.injEq] at advanced
      obtain ⟨rfl, -, -⟩ := advanced
      intro block stored found
      have other : block ≠ memory.next := by
        rintro rfl
        rw [(ledger.fresh _ (Nat.le_refl _)).1] at found
        contradiction
      simpa [Memory.alloc, Function.update_of_ne other] using found
  | fetchAdd | fetchSub | dealloc =>
      simp only [RefCount.advance, Option.some.injEq, Prod.mk.injEq] at advanced
      obtain ⟨rfl, -, -⟩ := advanced
      exact fun _ _ found => found
  | read block next =>
      simp only [RefCount.advance, Option.ite_none_right_eq_some, Option.map_eq_some_iff,
        Prod.mk.injEq] at advanced
      obtain ⟨-, -, -, rfl, -, -⟩ := advanced
      exact fun _ _ found => found

/-- The books after one update: what it does to the memory, to the handles in hand and to the block
that is due. -/
inductive Booked (modulus : Nat) (memory : Memory Content) (held : Multiset Block) :
    Option Block → Memory Content → Multiset Block → Option Block → Prop where
  | read : Booked modulus memory held none memory held none
  | alloc (content : Content) :
      Booked modulus memory held none (memory.alloc content) (memory.next ::ₘ held) none
  | fetchAdd {block : Block} (member : block ∈ held) (amount : Nat) :
      Booked modulus memory held none
        (memory.setCount block ((memory.count block + amount) % modulus))
        (held + Multiset.replicate amount block) none
  | fetchSub {block : Block} (member : block ∈ held) :
      Booked modulus memory held none
        (memory.setCount block ((memory.count block + (modulus - 1)) % modulus))
        (held.erase block) (if memory.count block = 1 then some block else none)
  | giveBack (block : Block) :
      Booked modulus memory held (some block) (memory.giveBack block) held none

/-- A sound program stays sound after each of its updates, and the update is in the books. -/
theorem Program.Sound.advance {contents : Block → Option Content}
    {post : Result → Multiset Block → Prop}
    (sound : program.Sound contents post program.due held)
    (advanced : advance memory modulus held program = some (memory', held', program'))
    (later : Extends memory'.content contents) :
    program'.Sound contents post program'.due held' ∧
      Booked modulus memory held program.due memory' held' program'.due := by
  cases program with
  | done result => contradiction
  | abort => contradiction
  | alloc content next =>
      simp only [RefCount.advance, Option.some.injEq, Prod.mk.injEq] at advanced
      obtain ⟨rfl, rfl, rfl⟩ := advanced
      have rest := sound.2 _ (later memory.next content (by simp [Memory.alloc]))
      rw [rest.due_eq]
      exact ⟨rest, .alloc content⟩
  | fetchAdd block amount next =>
      simp only [RefCount.advance, Option.some.injEq, Prod.mk.injEq] at advanced
      obtain ⟨rfl, rfl, rfl⟩ := advanced
      obtain ⟨-, member, rest⟩ := sound
      rw [rest.due_eq]
      exact ⟨rest, .fetchAdd member amount⟩
  | fetchSub block next =>
      simp only [RefCount.advance, Option.some.injEq, Prod.mk.injEq] at advanced
      obtain ⟨rfl, rfl, rfl⟩ := advanced
      obtain ⟨-, member, rest⟩ := sound
      rw [(rest (memory.count block)).due_eq]
      exact ⟨rest (memory.count block), .fetchSub member⟩
  | dealloc block next =>
      simp only [RefCount.advance, Option.some.injEq, Prod.mk.injEq] at advanced
      obtain ⟨rfl, rfl, rfl⟩ := advanced
      obtain ⟨-, rest⟩ := sound
      rw [rest.due_eq]
      exact ⟨rest, .giveBack block⟩
  | read block next =>
      simp only [RefCount.advance, Option.ite_none_right_eq_some, Option.map_eq_some_iff,
        Prod.mk.injEq] at advanced
      obtain ⟨-, content, stored, rfl, rfl, rfl⟩ := advanced
      have rest := sound.2 content (later _ _ stored)
      rw [rest.due_eq]
      exact ⟨rest, .read⟩

/-- A booked update keeps the ledger, whatever handles others hold. -/
theorem Ledger.booked {due due' : Option Block}
    (ledger : Ledger modulus memory (held + rest) (Handle.tokens due + dues)) (large : 1 < modulus)
    (booked : Booked modulus memory held due memory' held' due') :
    Ledger modulus memory' (held' + rest) (Handle.tokens due' + dues) := by
  cases booked with
  | read => exact ledger
  | alloc content =>
      rw [Multiset.cons_add]
      exact ledger.alloc large content
  | fetchAdd member amount =>
      rw [add_right_comm]
      exact ledger.fetchAdd (Multiset.mem_add.mpr (.inl member)) amount
  | fetchSub member =>
      rw [Handle.tokens_none, zero_add] at ledger
      rw [← Multiset.erase_add_left_pos _ member]
      apply ledger.fetchSub (Multiset.mem_add.mpr (.inl member)) (by omega)
      intro other named
      split at named
      · exact (Option.mem_some.mp named).symm
      · contradiction
  | giveBack block =>
      rw [Handle.tokens_some, Multiset.singleton_add] at ledger
      rw [Handle.tokens_none, zero_add]
      exact ledger.giveBack

/-- A booked update keeps the fate of each block exclusive while no counter wraps around. -/
theorem Exclusive.booked {due due' : Option Block}
    (exclusive : Exclusive memory (held + rest) (Handle.tokens due + dues))
    (ledger : Ledger modulus memory (held + rest) (Handle.tokens due + dues))
    (bounded : ∀ block, (held + rest).count block < modulus)
    (booked : Booked modulus memory held due memory' held' due') :
    Exclusive memory' (held' + rest) (Handle.tokens due' + dues) := by
  cases booked with
  | read => exact exclusive
  | alloc content =>
      rw [Multiset.cons_add]
      exact exclusive.alloc ledger content
  | fetchAdd member amount =>
      rw [add_right_comm]
      exact exclusive.fetchAdd (Multiset.mem_add.mpr (.inl member)) amount _
  | @fetchSub block member =>
      rw [Handle.tokens_none, zero_add] at exclusive ledger
      rw [← Multiset.erase_add_left_pos _ member]
      exact exclusive.fetchSub ledger (Multiset.mem_add.mpr (.inl member)) (bounded block) _
  | giveBack block =>
      rw [Handle.tokens_some, Multiset.singleton_add] at exclusive
      rw [Handle.tokens_none, zero_add]
      exact exclusive.giveBack

end MartCommon.Library.RefCount
