import MartCommon.Mba.Origins

namespace MartCommon.Mba

open Library Library.RefCount

variable {Slot Thread : Type} [DecidableEq Slot] [DecidableEq Thread]

/-- The strings of a program and its operations in progress. -/
abbrev Strings (Slot Thread : Type) := State Text ImStr Slot Thread

/-- Operations on strings by any number of threads. The reference counter is an `int`, whose atomic
arithmetic wraps around. -/
def stringSystem (Slot Thread : Type) [DecidableEq Slot] [DecidableEq Thread] :
    StepSystem (Strings Slot Thread) (Action (Operation Slot) Slot Thread) Unit :=
  machine (2 ^ 32) (strings Slot)

/-- The number of live strings with a handle on a buffer. -/
def liveHandles (state : Strings Slot Thread) (block : Block) : Nat :=
  (Pool.values state.objects).countP fun object => object.handle = some block

omit [DecidableEq Thread] in
/-- Live handles are the counted handles of the strings that no operation uses. -/
theorem count_liveTokens (state : Strings Slot Thread) (block : Block) :
    ((strings Slot).liveTokens state).count block = liveHandles state block := by
  unfold Interface.liveTokens liveHandles
  rw [strings_tokens]
  induction Pool.values state.objects with
  | nil => simp
  | cons object rest ih =>
      rw [List.map_cons, List.sum_cons, Multiset.count_add, ih, Handle.count_tokens,
        List.countP_cons]
      simp [Nat.add_comm]

/-- The strings are lawful without a condition on their operations. -/
theorem lawful_strings : Lawful (strings Slot) fun _ _ => True where
  monotone := fun _ _ => trivial
  sound := by
    intro operation objects program contents body length _
    exact (body_sound body).mono fun outcome held traced =>
      ⟨traced.kept.trans length, traced.handles, fun _ _ => trivial⟩

/-- With fewer than `2 ^ 31` handles on each buffer, the counters are exact in every run and every
interleaving. While no operation is in progress each counter is the number of live handles, and a
buffer was deallocated exactly when it has none. At any time a buffer was deallocated at most once, and
one that was deallocated has no handle and is touched by no operation. A buffer that lost its last
handle is deallocated by the next update of the operation that took it. -/
theorem refCnt_exact {history : List Unit} {state : Strings Slot Thread}
    (run : ((stringSystem Slot Thread).confine ((strings Slot).Within (2 ^ 31))).Run {} history
      state) :
    (state.jobs = [] → ∀ block, block < state.memory.next →
      state.memory.count block = liveHandles state block ∧
      (state.memory.freed block = 1 ↔ liveHandles state block = 0)) ∧
    (∀ block, state.memory.freed block ≤ 1) ∧
    (∀ block, state.memory.freed block = 1 → liveHandles state block = 0 ∧
      block ∉ state.heldTokens ∧
      ∀ job ∈ Pool.values state.jobs, job.program.touched ≠ some block) ∧
    (∀ block, block < state.memory.next → liveHandles state block = 0 →
      block ∉ state.heldTokens → state.memory.freed block = 0 →
      ∃ job ∈ Pool.values state.jobs, job.program.due = some block) := by
  have counted : Counted (strings Slot) state :=
    run_counted (by decide) (by decide) lawful_strings run
  have unheld : ∀ block, block ∉ (strings Slot).tokensOf state ↔
      liveHandles state block = 0 ∧ block ∉ state.heldTokens := by
    intro block
    rw [← count_liveTokens, Multiset.count_eq_zero, Interface.tokensOf, Multiset.mem_add, not_or]
  refine ⟨?_, counted.once, ?_, ?_⟩
  · intro idle block within
    rw [counted.count idle block within, counted.freed idle block within, count_liveTokens,
      ← count_liveTokens, Multiset.count_eq_zero]
    exact ⟨rfl, Iff.rfl⟩
  · intro block once
    obtain ⟨gone, untouched⟩ := counted.guarded block once
    obtain ⟨dead, unused⟩ := (unheld block).mp gone
    exact ⟨dead, unused, untouched⟩
  · intro block within dead unused kept
    exact counted.last block within ((unheld block).mpr ⟨dead, unused⟩) kept

/-- One thread splits a string and ends it while another one ends a slice. -/
def splitActions : List (Action (Operation Nat) Nat Nat) :=
  [.begin 0 (.fromView .imStr (some (ascii "a,b"))), .tick 0, .finish 0 [0],
    .begin 0 (.splitFull 0 44 .drop), .tick 0, .tick 0, .finish 0 [1, 2],
    .begin 0 (.destroy 0), .begin 1 (.destroy 1), .tick 1, .tick 0, .finish 0 [], .finish 1 [],
    .begin 1 (.destroy 2), .tick 1, .tick 1, .finish 1 []]

theorem refCnt_exact_split :
    ∃ history state, ((stringSystem Nat Nat).confine ((strings Nat).Within (2 ^ 31))).Run {} history
        state ∧ state.memory.freed 0 = 1 ∧ ∀ block, state.memory.freed block ≤ 1 := by
  have executed : (((stringSystem Nat Nat).confine ((strings Nat).Within (2 ^ 31))).execute {}
      splitActions).map (fun answer => answer.2.memory.freed 0) = some 1 := by
    decide +kernel
  obtain ⟨⟨history, state⟩, ran, freed⟩ := Option.map_eq_some_iff.mp executed
  have run := StepSystem.run_of_execute splitActions ran
  exact ⟨history, state, run, freed, (refCnt_exact run).2.1⟩

end MartCommon.Mba
