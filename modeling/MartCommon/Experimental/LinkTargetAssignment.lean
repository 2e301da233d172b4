import MartCommon.Experimental.LinkTracking

namespace MartCommon.Experimental.Link

open Library

variable {L T : Type*}

namespace State

/-- A live target has no back pointer. -/
def Empty (state : State L T) (t : T) : Prop :=
  ∃ table, state.tables t = some table ∧ ∀ entry ∈ table, entry = none

variable [DecidableEq L] {state : State L T} {t u : T} {value : Option T}

/-- The loop writes nothing for a table without links. -/
theorem retarget_empty {backPtrs : List (Option L)} (empty : ∀ entry ∈ backPtrs, entry = none) :
    state.retarget backPtrs value = state := by
  induction backPtrs with
  | nil => rfl
  | cons entry rest ih =>
      have here : entry = none := empty entry List.mem_cons_self
      subst here
      exact ih fun entry member => empty entry (List.mem_cons_of_mem _ member)

variable [DecidableEq T]

/-- The assignment between two targets does what the move construction does, whatever was in the table. -/
theorem moveAssignTarget_eq (different : t ≠ u) (live : (state.tables t).isSome)
    (otherLive : (state.tables u).isSome) :
    state.moveAssignTarget t u = state.moveConstructTarget t u := by
  obtain ⟨old, present⟩ := Option.isSome_iff_exists.mp live
  obtain ⟨table, found⟩ := Option.isSome_iff_exists.mp otherLive
  simp only [moveAssignTarget, moveConstructTarget, constructTarget, present, found,
    Function.update_of_ne different, Function.update_self, Option.getD_some]

/-- The assignment of a target to itself clears its table. -/
theorem moveAssignTarget_self {table : List (Option L)} (found : state.tables t = some table) :
    state.moveAssignTarget t t = { state with
      tables := Function.update state.tables t (some (List.replicate table.length none)) } := by
  simp only [moveAssignTarget, constructTarget, found, Function.update_self, Function.update_idem,
    Option.getD_some]
  exact retarget_empty fun _ => List.eq_of_mem_replicate

/-- What `a = std::move( b )` should leave: the links of `b` are links of `a`, and the old links of `a` are
disconnected. -/
structure TakesOver (before after : State L T) (a b : T) : Prop where
  moved : ∀ l, before.target l = some b → after.target l = some a ∧ after.backRefs a l = 1
  emptied : after.Empty b
  released : ∀ l, before.target l = some a → after.target l = none
  nulled : ∀ l, after.target l = some a → (after.destroyTarget a).target l = none

theorem takesOver_iff (consistent : state.Consistent) (different : t ≠ u)
    (live : (state.tables t).isSome) (otherLive : (state.tables u).isSome) :
    TakesOver state (state.moveAssignTarget t u) t u ↔ ∀ l, state.target l ≠ some t := by
  rw [moveAssignTarget_eq different live otherLive]
  obtain ⟨table, found⟩ := Option.isSome_iff_exists.mp otherLive
  have takenOver := takenOver_moveConstructTarget t found (consistent.table_live found)
  constructor
  · intro takes l pointing
    have unlisted : some l ∉ table := by
      rw [consistent.mem_table found, pointing]
      exact fun same => different (Option.some.inj same)
    have kept := takenOver.target l
    rw [if_neg unlisted, pointing, takes.released l pointing] at kept
    contradiction
  · intro unpointed
    have becomes := consistent.takeOver different unpointed otherLive
    refine ⟨fun l pointing => ?_, ?_, fun l pointing => absurd pointing (unpointed l), fun l pointing => ?_⟩
    · have arrived : (state.moveConstructTarget t u).target l = some t :=
        (congrFun becomes.target l).trans (if_pos pointing)
      refine ⟨arrived, ?_⟩
      rw [becomes.consistent.counted, if_pos arrived]
    · refine ⟨List.replicate table.length none, ?_, fun _ => List.eq_of_mem_replicate⟩
      rw [takenOver.tables, Function.update_self]
    · have alive : ((state.moveConstructTarget t u).tables t).isSome := by
        rw [becomes.living, Function.update_self]
      have ended := becomes.consistent.destroyTarget alive
      exact (congrFun ended.target l).trans (if_pos pointing)

theorem moveAssignTarget_self_iff (live : (state.tables t).isSome) :
    (∀ l, state.target l = some t → (state.moveAssignTarget t t).target l = some t ∧
        (state.moveAssignTarget t t).backRefs t l = 1) ↔
      ∀ l, state.target l ≠ some t := by
  obtain ⟨table, found⟩ := Option.isSome_iff_exists.mp live
  constructor
  · intro keeps l pointing
    have known := (keeps l pointing).2
    rw [moveAssignTarget_self found, backRefs_of_table (Function.update_self t _ _),
      List.count_replicate] at known
    contradiction
  · intro unpointed l pointing
    exact absurd pointing (unpointed l)

/-- The move assignment of targets is right where no link points to the target that is assigned to. -/
theorem move_assignment_of_targets (consistent : state.Consistent) (live : (state.tables t).isSome)
    (otherLive : (state.tables u).isSome) :
    (t ≠ u → (TakesOver state (state.moveAssignTarget t u) t u ↔ ∀ l, state.target l ≠ some t)) ∧
      ((∀ l, state.target l = some t → (state.moveAssignTarget t t).target l = some t ∧
          (state.moveAssignTarget t t).backRefs t l = 1) ↔
        ∀ l, state.target l ≠ some t) :=
  ⟨fun different => takesOver_iff consistent different live otherLive,
    moveAssignTarget_self_iff live⟩

end State

/-- Two targets, one link, and a connection to the first target. -/
def connectedActions : List (Action Nat Nat) :=
  [.constructTarget 0 1, .constructTarget 1 1, .constructLink 0, .connect 0 0]

theorem move_assignment_of_targets_free :
    ∃ history state, (system Nat Nat).execute {} connectedActions = some (history, state) ∧
      (1 ≠ 0 → (State.TakesOver state (state.moveAssignTarget 1 0) 1 0 ↔
        ∀ l, state.target l ≠ some 1)) ∧
      ((∀ l, state.target l = some 1 → (state.moveAssignTarget 1 1).target l = some 1 ∧
          (state.moveAssignTarget 1 1).backRefs 1 l = 1) ↔
        ∀ l, state.target l ≠ some 1) := by
  obtain ⟨history, state, executed, live, otherLive⟩ : ∃ history state,
      (system Nat Nat).execute {} connectedActions = some (history, state) ∧
        (state.tables 1).isSome ∧ (state.tables 0).isSome := ⟨_, _, rfl, rfl, rfl⟩
  have consistent := (follows_of_run (StepSystem.run_of_execute connectedActions executed)).1
  exact ⟨history, state, executed, State.move_assignment_of_targets consistent live otherLive⟩

/-- The link of a target that is assigned to keeps pointing to it, also when the target has ended. -/
theorem move_assignment_of_targets_stale :
    ∃ history state, (system Nat Nat).execute {} connectedActions = some (history, state) ∧
      state.Consistent ∧ (state.tables 0).isSome ∧ (state.tables 1).isSome ∧
      ¬State.TakesOver state (state.moveAssignTarget 0 1) 0 1 ∧
      ((state.moveAssignTarget 0 1).destroyTarget 0).target 0 = some 0 ∧
      ¬∀ l, state.target l = some 0 → (state.moveAssignTarget 0 0).target l = some 0 ∧
        (state.moveAssignTarget 0 0).backRefs 0 l = 1 := by
  refine ⟨_, _, rfl, (follows_of_run (StepSystem.run_of_execute connectedActions rfl)).1, rfl, rfl,
    ?_, rfl, ?_⟩
  · intro takes
    exact absurd (takes.nulled 0 rfl) (by decide)
  · intro keeps
    exact absurd (keeps 0 rfl).2 (by decide)

namespace State

variable [DecidableEq L] [DecidableEq T] {state : State L T} {t u : T}

/-- What `sever_all_links` should leave, for the links and for what happens to the target later. -/
structure Severs (before after : State L T) (t : T) : Prop where
  unpointed : ∀ l, after.target l ≠ some t
  emptied : after.Empty t
  destroyed : ∀ l, (after.destroyTarget t).target l ≠ some t
  moved : ∀ u, after.tables u = none → ∀ l, (after.moveConstructTarget u t).target l ≠ some t
  assigned : ∀ u, (after.tables u).isSome → ∀ l, (after.moveAssignTarget u t).target l ≠ some t
  disconnected : ∀ l, before.target l = some t → after.disconnect l = (false, after)

/-- A target without back pointers writes to no link any more. -/
theorem Empty.target_destroyTarget (empty : state.Empty t) :
    (state.destroyTarget t).target = state.target := by
  obtain ⟨table, found, empty⟩ := empty
  simp only [destroyTarget, found, retarget_empty empty]
  rfl

theorem Empty.target_moveConstructTarget (empty : state.Empty t) (u : T) :
    (state.moveConstructTarget u t).target = state.target := by
  obtain ⟨table, found, empty⟩ := empty
  simp only [moveConstructTarget, found, retarget_empty empty]
  rfl

theorem Empty.target_moveAssignTarget (empty : state.Empty t) (live : (state.tables u).isSome) :
    (state.moveAssignTarget u t).target = state.target := by
  by_cases same : u = t
  · subst same
    obtain ⟨table, found, -⟩ := empty
    rw [moveAssignTarget_self found]
    rfl
  · have alive : (state.tables t).isSome := by
      obtain ⟨table, found, -⟩ := empty
      rw [found]
      rfl
    rw [moveAssignTarget_eq same live alive, empty.target_moveConstructTarget]

/-- `sever_all_links` clears one side of the connections only, which is enough where there are none. -/
theorem severAllLinks_severs (live : (state.tables t).isSome) :
    Severs state (state.severAllLinks t) t ↔ ∀ l, state.target l ≠ some t := by
  obtain ⟨table, found⟩ := Option.isSome_iff_exists.mp live
  have cleared : state.severAllLinks t = { state with
      tables := Function.update state.tables t (some (table.map fun _ => none)) } := by
    rw [severAllLinks, found]
  have target : (state.severAllLinks t).target = state.target := by
    rw [cleared]
    rfl
  have empty : (state.severAllLinks t).Empty t := by
    refine ⟨table.map fun _ => none, ?_, fun entry member => ?_⟩
    · rw [cleared]
      exact Function.update_self t _ state.tables
    · obtain ⟨_, _, same⟩ := List.mem_map.mp member
      exact same.symm
  constructor
  · intro severs
    rw [← target]
    exact severs.unpointed
  · intro unpointed
    refine ⟨?_, empty, ?_, fun u absent => ?_, fun u live => ?_, fun l pointing => ?_⟩
    · rw [target]
      exact unpointed
    · rw [empty.target_destroyTarget, target]
      exact unpointed
    · rw [empty.target_moveConstructTarget, target]
      exact unpointed
    · rw [empty.target_moveAssignTarget live, target]
      exact unpointed
    · exact absurd pointing (unpointed l)

end State

theorem severAllLinks_severs_free :
    ∃ history state, (system Nat Nat).execute {} connectedActions = some (history, state) ∧
      (State.Severs state (state.severAllLinks 1) 1 ↔ ∀ l, state.target l ≠ some 1) := by
  obtain ⟨history, state, executed, live⟩ : ∃ history state,
      (system Nat Nat).execute {} connectedActions = some (history, state) ∧
        (state.tables 1).isSome := ⟨_, _, rfl, rfl⟩
  exact ⟨history, state, executed, State.severAllLinks_severs live⟩

/-- A severed link still points to the target. -/
theorem severAllLinks_pointing :
    ∃ history state, (system Nat Nat).execute {} connectedActions = some (history, state) ∧
      state.Consistent ∧ (state.tables 0).isSome ∧ ¬State.Severs state (state.severAllLinks 0) 0 := by
  refine ⟨_, _, rfl, (follows_of_run (StepSystem.run_of_execute connectedActions rfl)).1, rfl, ?_⟩
  intro severs
  exact severs.unpointed 0 rfl

end MartCommon.Experimental.Link
