import MartCommon.Experimental.StorageSafety
import Mathlib.Data.Fintype.Card

namespace MartCommon.Experimental.StoragePool

open Library Library.SlotLedger

variable {n : Nat}

/-- `alloc()` where nobody else works on the slots, so that the exchange succeeds on the first free
one. -/
def alloc (slots : Fin n → StorageSlot) : Option (Fin n) × (Fin n → StorageSlot) :=
  match Fin.find? fun entry => (slots entry).cnt = -1 with
  | none => (none, slots)
  | some entry => (some entry, Function.update slots entry { slots entry with cnt := 0 })

/-- How a call ends: with an empty `Optional`, with a reference, or with an exception. -/
inductive Ending (n : Nat) where
  | empty
  | holds (reference : Reference n)
  | exception
  deriving DecidableEq

/-- The two functions that construct a `T`, whose constructor throws or not. -/
def constructAs (kind : RefKind) (throws : Bool) (slots : Fin n → StorageSlot) :
    Ending n × (Fin n → StorageSlot) :=
  match alloc slots with
  | (none, slots) => (.empty, slots)
  | (some entry, slots) =>
      -- nothing catches what the placement new throws
      if throws then (.exception, slots)
      else (.holds ⟨kind, some entry⟩,
        Function.update slots entry ⟨(slots entry).cnt + 1, true⟩)

/-- `construct` -/
def construct (throws : Bool) (slots : Fin n → StorageSlot) : Ending n × (Fin n → StorageSlot) :=
  constructAs .constRef throws slots

/-- `constructMutable` -/
def constructMutable (throws : Bool) (slots : Fin n → StorageSlot) :
    Ending n × (Fin n → StorageSlot) :=
  constructAs .ref throws slots

/-- The number of objects that the store can still hold. -/
def capacity (slots : Fin n → StorageSlot) : Nat :=
  (Finset.univ.filter fun entry => (slots entry).cnt = -1).card

/-- Calls of the two functions, one after the other, in which the constructor throws. -/
def failing (kinds : List RefKind) (slots : Fin n → StorageSlot) : Fin n → StorageSlot :=
  kinds.foldl (fun slots kind => (constructAs kind true slots).2) slots

section Alone

variable {slots : Fin n → StorageSlot}

/-- The first free slot is reserved. -/
theorem alloc_free (free : ∃ slot, (slots slot).cnt = -1) :
    ∃ entry, (slots entry).cnt = -1 ∧ (∀ earlier, earlier < entry → (slots earlier).cnt ≠ -1) ∧
      alloc slots = (some entry, Function.update slots entry { slots entry with cnt := 0 }) := by
  obtain ⟨entry, free, first⟩ := (Fin.exists_iff_exists_minimal fun slot => (slots slot).cnt = -1).mp free
  have found : (Fin.find? fun slot => (slots slot).cnt = -1) = some entry := by
    rw [Fin.find?_eq_some_iff]
    exact ⟨decide_eq_true free, fun earlier before => decide_eq_false (first earlier before)⟩
  exact ⟨entry, free, first, by rw [alloc, found]⟩

theorem alloc_full (full : ∀ slot, (slots slot).cnt ≠ -1) : alloc slots = (none, slots) := by
  have none : (Fin.find? fun slot => (slots slot).cnt = -1) = none := by
    rw [Fin.find?_eq_none_iff]
    exact fun slot => decide_eq_false (full slot)
  rw [alloc, none]

theorem capacity_claim {entry : Fin n} (free : (slots entry).cnt = -1) :
    capacity (Function.update slots entry { slots entry with cnt := 0 }) + 1 = capacity slots := by
  have rest : (Finset.univ.filter fun slot =>
      (Function.update slots entry { slots entry with cnt := 0 } slot).cnt = -1) =
      (Finset.univ.filter fun slot => (slots slot).cnt = -1).erase entry := by
    ext slot
    rw [Finset.mem_erase, Finset.mem_filter, Finset.mem_filter]
    by_cases same : slot = entry
    · subst same
      simp
    · simp [same]
  rw [capacity, rest]
  apply Finset.card_erase_add_one
  exact Finset.mem_filter.mpr ⟨Finset.mem_univ entry, free⟩

theorem capacity_full (full : ∀ slot, (slots slot).cnt ≠ -1) : capacity slots = 0 := by
  rw [capacity, Finset.card_eq_zero, Finset.filter_eq_empty_iff]
  exact fun slot _ => full slot

/-- An exception leaves the reserved slot as it is. -/
theorem constructAs_throws (kind : RefKind) (free : ∃ slot, (slots slot).cnt = -1) :
    ∃ entry, (slots entry).cnt = -1 ∧ constructAs kind true slots =
      (.exception, Function.update slots entry { slots entry with cnt := 0 }) := by
  obtain ⟨entry, marked, -, reserved⟩ := alloc_free free
  refine ⟨entry, marked, ?_⟩
  rw [constructAs, reserved]
  rfl

/-- Each failed call takes one object away from what the store can hold, until nothing is left. -/
theorem capacity_constructAs (kind : RefKind) (slots : Fin n → StorageSlot) :
    capacity (constructAs kind true slots).2 = capacity slots - 1 := by
  by_cases free : ∃ slot, (slots slot).cnt = -1
  · obtain ⟨entry, marked, failed⟩ := constructAs_throws kind free
    rw [failed, ← capacity_claim marked, Nat.add_sub_cancel]
  · have full : ∀ slot, (slots slot).cnt ≠ -1 := not_exists.mp free
    rw [constructAs, alloc_full full, capacity_full full]

theorem capacity_failing (kinds : List RefKind) (slots : Fin n → StorageSlot) :
    capacity (failing kinds slots) = capacity slots - kinds.length := by
  induction kinds generalizing slots with
  | nil => rfl
  | cons kind rest ih =>
      rw [failing, List.foldl_cons]
      change capacity (failing rest (constructAs kind true slots).2) = _
      rw [ih, capacity_constructAs, List.length_cons, Nat.sub_sub, Nat.add_comm]

/-- Whenever the constructor throws, the exception reaches the caller, but a counter has changed. After
a number of such calls the store can hold so many objects less. -/
theorem construct_loses_slot (kind : RefKind) (free : ∃ slot, (slots slot).cnt = -1) :
    (∃ after, constructAs kind true slots = (.exception, after) ∧
      ¬ ∀ slot, (after slot).cnt = (slots slot).cnt) ∧
      ∀ kinds, capacity (failing kinds slots) = capacity slots - kinds.length := by
  refine ⟨?_, fun kinds => capacity_failing kinds slots⟩
  obtain ⟨entry, marked, failed⟩ := constructAs_throws kind free
  refine ⟨_, failed, fun same => ?_⟩
  have changed : (0 : BitVec 32) = -1 := by
    rw [← marked, ← same entry, Function.update_self]
  exact absurd changed (by decide)

theorem construct_loses_slot_one :
    (∃ after, construct true (fun _ : Fin 1 => {}) = (.exception, after) ∧
      ¬ ∀ slot, (after slot).cnt = -1) ∧
      ∀ kinds, capacity (failing kinds fun _ : Fin 1 => {}) =
        capacity (fun _ : Fin 1 => {}) - kinds.length :=
  construct_loses_slot .constRef ⟨0, rfl⟩

/-- The only slot of a store stays reserved, and a second construction finds none. -/
theorem construct_leaks :
    ∃ after, constructMutable true (fun _ : Fin 1 => {}) = (.exception, after) ∧ (after 0).cnt = 0 ∧
      constructMutable false after = (.empty, after) :=
  ⟨_, rfl, rfl, rfl⟩

end Alone

section Threads

variable {Object Thread : Type*}

/-- An exception can leave an operation where the placement new comes next. -/
inductive ThrowingAction (Object Thread : Type*) where
  | regular (action : Action Object Thread)
  | throws (thread : Thread)

inductive ThrowingEvent (n : Nat) (Thread : Type*) where
  | regular (event : Event n Thread)
  | thrown (entry : Fin n)
  deriving DecidableEq

/-- The threads work on the store as before, but constructors may throw. -/
def throwingSystem (n : Nat) (Object Thread : Type*) [DecidableEq Object] [DecidableEq Thread] :
    StepSystem (State n Object Thread) (ThrowingAction Object Thread) (ThrowingEvent n Thread) where
  step state
    | .regular action => (step state action).map fun answer => (.regular answer.1, answer.2)
    | .throws thread => (Pool.take thread state.jobs).bind fun taken =>
        match taken.1.phase with
        | .place _ _ entry => some (.thrown entry, { state with jobs := taken.2 })
        | _ => none

section Runs

variable {Object Thread : Type*} [DecidableEq Object] [DecidableEq Thread]
  {slots slots' : Fin n → StorageSlot} {refs after : Pool Object (Reference n)} {thread : Thread}
  {phase next : Phase n Object} {borrowed : Option Object} {rest : Pool Thread (Job n Object)}
  {event : Event n Thread} {kind : RefKind} {target : Object} {entry : Fin n}

/-- An operation that goes on. -/
theorem step_next (advanced : phase.advance slots thread = (event, slots', .inl next)) :
    (throwingSystem n Object Thread).step ⟨slots, refs, (thread, ⟨borrowed, phase⟩) :: rest⟩
        (.regular (.tick thread)) =
      some (.regular event, ⟨slots', refs, (thread, ⟨borrowed, next⟩) :: rest⟩) := by
  simp only [throwingSystem, step, Pool.take, if_true, Option.map_some, advanced, State.resume]

/-- An operation that ends. -/
theorem step_last (advanced : phase.advance slots thread = (event, slots', .inr after)) :
    (throwingSystem n Object Thread).step ⟨slots, refs, (thread, ⟨borrowed, phase⟩) :: rest⟩
        (.regular (.tick thread)) = some (.regular event, ⟨slots', after ++ refs, rest⟩) := by
  simp only [throwingSystem, step, Pool.take, if_true, Option.map_some, advanced, State.resume]

/-- The loads of a scan up to the first free slot. -/
theorem execute_scan (refs : Pool Object (Reference n)) (thread : Thread) (kind : RefKind)
    (target : Object) (rest : Pool Thread (Job n Object)) (free : (slots entry).cnt = -1)
    (first : ∀ earlier, earlier < entry → (slots earlier).cnt ≠ -1) (left index : Nat)
    (distance : index + left = entry) :
    ∃ events, (throwingSystem n Object Thread).execute
        ⟨slots, refs, (thread, ⟨none, .scan kind target index⟩) :: rest⟩
        (List.replicate (left + 1) (.regular (.tick thread))) =
      some (events, ⟨slots, refs, (thread, ⟨none, .exchange kind target entry⟩) :: rest⟩) := by
  induction left generalizing index with
  | zero =>
      obtain rfl : index = entry := distance
      have loads : (Phase.scan kind target entry).advance slots thread =
          (.loaded thread entry (slots entry).cnt, slots, .inl (.exchange kind target entry)) := by
        simp only [Phase.advance, dif_pos entry.isLt, Fin.eta, if_pos free]
      exact ⟨_, StepSystem.execute_cons (step_next loads) rfl⟩
  | succ left ih =>
      have inside : index < n := by omega
      have busy : (slots ⟨index, inside⟩).cnt ≠ -1 := first ⟨index, inside⟩ (show index < entry.val by omega)
      have loads : (Phase.scan kind target index).advance slots thread =
          (.loaded thread ⟨index, inside⟩ (slots ⟨index, inside⟩).cnt, slots,
            .inl (.scan kind target (index + 1))) := by
        simp only [Phase.advance, dif_pos inside, if_neg busy]
      obtain ⟨events, continued⟩ := ih (index + 1) (by omega)
      exact ⟨_, StepSystem.execute_cons (step_next loads) continued⟩

variable {state : State n Object Thread}

/-- A thread that works alone reserves the slot that `alloc` names. -/
theorem execute_alloc (idle : state.idle thread) (fresh : target ∉ state.names)
    (free : ∃ slot, (state.slots slot).cnt = -1) (kind : RefKind) :
    ∃ ticks events entry slots, alloc state.slots = (some entry, slots) ∧
      (throwingSystem n Object Thread).execute state
        (.regular (.construct thread kind target) :: List.replicate ticks (.regular (.tick thread))) =
      some (events, ⟨slots, state.refs, (thread, ⟨none, .place kind target entry⟩) :: state.jobs⟩) := by
  obtain ⟨entry, free, first, reserved⟩ := alloc_free free
  have begins : (throwingSystem n Object Thread).step state (.regular (.construct thread kind target)) =
      some (.regular .silent, ⟨state.slots, state.refs,
        (thread, ⟨none, .scan kind target 0⟩) :: state.jobs⟩) := by
    simp only [throwingSystem, step, if_pos (And.intro idle fresh), Option.map_some, State.resume]
  obtain ⟨events, scanned⟩ := execute_scan state.refs thread kind target state.jobs free first entry 0
    (Nat.zero_add _)
  have claims : (Phase.exchange kind target entry).advance state.slots thread =
      (.exchanged thread entry true,
        Function.update state.slots entry { state.slots entry with cnt := 0 },
        .inl (.place kind target entry)) := by
    simp only [Phase.advance, if_pos free]
  have executed := StepSystem.execute_append scanned (StepSystem.execute_one (step_next claims))
  rw [← List.replicate_succ'] at executed
  exact ⟨entry + 2, _, entry, _, reserved, StepSystem.execute_cons begins executed⟩

/-- There an exception leaves the slots as `constructAs` does. -/
theorem execute_throws (idle : state.idle thread) (fresh : target ∉ state.names)
    (free : ∃ slot, (state.slots slot).cnt = -1) (kind : RefKind) :
    ∃ ticks events, (throwingSystem n Object Thread).execute state
        (.regular (.construct thread kind target) :: List.replicate ticks (.regular (.tick thread)) ++
          [.throws thread]) =
      some (events, { state with slots := (constructAs kind true state.slots).2 }) := by
  obtain ⟨ticks, events, entry, slots, reserved, executed⟩ := execute_alloc idle fresh free kind
  have throws : (throwingSystem n Object Thread).step
      ⟨slots, state.refs, (thread, ⟨none, .place kind target entry⟩) :: state.jobs⟩ (.throws thread) =
      some (.thrown entry, ⟨slots, state.refs, state.jobs⟩) := by
    simp only [throwingSystem, Pool.take, if_true, Option.bind_some]
  have same : (constructAs kind true state.slots).2 = slots := by
    rw [constructAs, reserved]
    rfl
  rw [same]
  exact ⟨ticks, _, StepSystem.execute_append executed (StepSystem.execute_one throws)⟩

/-- Without an exception the thread ends with the reference that `constructAs` returns. -/
theorem execute_constructs (idle : state.idle thread) (fresh : target ∉ state.names)
    (free : ∃ slot, (state.slots slot).cnt = -1) (kind : RefKind) :
    ∃ ticks events reference, (constructAs kind false state.slots).1 = .holds reference ∧
      (throwingSystem n Object Thread).execute state
        (.regular (.construct thread kind target) :: List.replicate ticks (.regular (.tick thread))) =
      some (events, { state with
        slots := (constructAs kind false state.slots).2
        refs := (target, reference) :: state.refs }) := by
  obtain ⟨ticks, events, entry, slots, reserved, executed⟩ := execute_alloc idle fresh free kind
  have result : constructAs kind false state.slots = (.holds ⟨kind, some entry⟩,
      Function.update slots entry ⟨(slots entry).cnt + 1, true⟩) := by
    rw [constructAs, reserved]
    rfl
  have built : Function.update (Function.update slots entry { slots entry with live := true }) entry
      { Function.update slots entry { slots entry with live := true } entry with
        cnt := (Function.update slots entry { slots entry with live := true } entry).cnt + 1 } =
      Function.update slots entry ⟨(slots entry).cnt + 1, true⟩ := by
    rw [Function.update_idem, Function.update_self]
  have places : (throwingSystem n Object Thread).step
      ⟨slots, state.refs, (thread, ⟨none, .place kind target entry⟩) :: state.jobs⟩
        (.regular (.tick thread)) = some (.regular (.constructed thread entry),
      ⟨Function.update slots entry { slots entry with live := true }, state.refs,
        (thread, ⟨none, .publish kind target entry⟩) :: state.jobs⟩) := step_next rfl
  have publishes : (throwingSystem n Object Thread).step
      ⟨Function.update slots entry { slots entry with live := true }, state.refs,
        (thread, ⟨none, .publish kind target entry⟩) :: state.jobs⟩ (.regular (.tick thread)) =
      some (.regular (.incremented thread entry),
        ⟨Function.update slots entry ⟨(slots entry).cnt + 1, true⟩,
          (target, ⟨kind, some entry⟩) :: state.refs, state.jobs⟩) := by
    rw [← built]
    have advanced : (Phase.publish kind target entry).advance
        (Function.update slots entry { slots entry with live := true }) thread =
        (.incremented thread entry, _, .inr [(target, ⟨kind, some entry⟩)]) := rfl
    exact step_last advanced
  have ended := StepSystem.execute_append executed
    (StepSystem.execute_cons places (StepSystem.execute_one publishes))
  have joined (action : ThrowingAction Object Thread) :
      List.replicate ticks action ++ [action, action] = List.replicate (ticks + 2) action :=
    (List.replicate_add ticks 2 action).symm
  rw [List.cons_append, joined] at ended
  rw [result]
  exact ⟨ticks + 2, _, ⟨kind, some entry⟩, rfl, ended⟩

end Runs

end Threads

end MartCommon.Experimental.StoragePool
