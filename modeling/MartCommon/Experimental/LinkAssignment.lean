import Mathlib.Data.List.Perm.Basic
import MartCommon.Experimental.LinkTracking

namespace MartCommon.Experimental.Link

open Library

section Exchange

variable {α : Type*} [BEq α] [LawfulBEq α] {xs : List α} {old new : α}

theorem mem_replace (member : old ∈ xs) (new : α) : new ∈ xs.replace old new := by
  induction xs with
  | nil => contradiction
  | cons x rest ih =>
      rw [List.replace_cons]
      cases same : old == x with
      | true => exact List.mem_cons_self
      | false =>
          have behind := (List.mem_cons.mp member).resolve_left (beq_eq_false_iff_ne.mp same)
          exact List.mem_cons_of_mem x (ih behind)

/-- Writing another value over an entry and then the old value over the first such entry keeps the entries,
perhaps in another order. -/
theorem replace_replace_perm (different : old ≠ new) (member : old ∈ xs) :
    ((xs.replace old new).replace new old).Perm xs := by
  have positive := List.count_pos_iff.mpr member
  rw [List.perm_iff_count]
  intro x
  rw [List.count_replace, if_pos (List.contains_iff_mem.mpr (mem_replace member new)),
    List.count_replace, if_pos (List.contains_iff_mem.mpr member)]
  have apart : (new == old) = false := beq_eq_false_iff_ne.mpr different.symm
  cases here : old == x with
  | true =>
      rw [← eq_of_beq here]
      simp only [if_true, apart, Bool.false_eq_true, if_false]
      omega
  | false =>
      simp only [Bool.false_eq_true, if_false]
      omega

theorem replace_cons_of_ne {x : α} {rest : List α} (different : old ≠ x) :
    (x :: rest).replace old new = x :: rest.replace old new := by
  rw [List.replace_cons, beq_eq_false_iff_ne.mpr different]

/-- The old value comes back to its place when no entry before it has the other value. -/
theorem replace_replace_eq (different : old ≠ new) (member : old ∈ xs) :
    (xs.replace old new).replace new old = xs ↔ new ∉ xs.takeWhile (· != old) := by
  induction xs with
  | nil => contradiction
  | cons x rest ih =>
      by_cases here : x = old
      · subst here
        simp
      · have behind : old ∈ rest := (List.mem_cons.mp member).resolve_left (Ne.symm here)
        rw [replace_cons_of_ne (Ne.symm here), List.takeWhile_cons_of_pos (by simpa using here),
          List.mem_cons, not_or, ← ih behind]
        by_cases early : x = new
        · subst early
          simp [different]
        · rw [replace_cons_of_ne (Ne.symm early)]
          simp [Ne.symm early]

end Exchange

variable {L T : Type*}

namespace State

variable {state before after : State L T} {l other x : L} {t u : T} {value : Option T}

/-- The links, and the entries of each table at any places, are as before. -/
structure Unchanged (before after : State L T) : Prop where
  links : after.links = before.links
  dangled : after.dangled = before.dangled
  tables : ∀ t, Option.Rel List.Perm (after.tables t) (before.tables t)

theorem Unchanged.refl : Unchanged state state := by
  refine ⟨rfl, rfl, fun t => ?_⟩
  cases state.tables t with
  | none => exact .none
  | some table => exact .some (.refl table)

variable [DecidableEq L] [DecidableEq T]

/-- A link is in no table any more, and nothing else has changed. -/
structure Unregistered (before after : State L T) (l : L) : Prop where
  links : after.links = before.links
  dangled : after.dangled = before.dangled
  tables : ∀ t, after.tables t = (before.tables t).map fun table =>
    if before.target l = some t then table.replace (some l) none else table

theorem Consistent.removeOwnRef (consistent : state.Consistent) :
    Unregistered state (state.removeOwnRef l) l := by
  rw [State.removeOwnRef]
  cases pointing : state.target l with
  | none => exact ⟨rfl, rfl, fun t => by simp [pointing]⟩
  | some t =>
      obtain ⟨table, found, member⟩ := consistent.target_live pointing
      simp only [removeBackRef, exchangeEntry, found, if_pos member]
      refine ⟨rfl, rfl, fun u => ?_⟩
      by_cases same : u = t
      · subst same
        simp [found, pointing]
      · simp [Function.update_of_ne same, pointing, Ne.symm same]

theorem Unregistered.target (removed : Unregistered before after l) : after.target = before.target := by
  funext x
  exact target_congr (congrFun removed.links x)

theorem Unregistered.living (removed : Unregistered before after l) (u : T) :
    (after.tables u).isSome = (before.tables u).isSome := by
  rw [removed.tables, Option.isSome_map]

theorem Unregistered.elsewhere (removed : Unregistered before after l) (u : T) (different : l ≠ x) :
    after.backRefs u x = before.backRefs u x := by
  rw [backRefs, removed.tables, backRefs]
  cases before.tables u with
  | none => rfl
  | some table =>
      simp only [Option.map_some, Option.getD_some]
      split
      · rw [List.count_replace]
        simp [different]
      · rfl

theorem Unregistered.here (removed : Unregistered before after l) (consistent : before.Consistent)
    (u : T) : after.backRefs u l = 0 := by
  have counts := consistent.counted u l
  rw [backRefs] at counts
  rw [backRefs, removed.tables]
  cases found : before.tables u with
  | none => rfl
  | some table =>
      rw [found, Option.getD_some] at counts
      simp only [Option.map_some, Option.getD_some]
      split
      · rename_i pointing
        rw [if_pos pointing] at counts
        have member := List.count_pos_iff.mp (counts ▸ Nat.one_pos)
        rw [List.count_replace, if_pos (List.contains_iff_mem.mpr member), counts]
        simp
      · rename_i elsewhere
        rw [counts, if_neg elsewhere]

/-- There is room in a table that has a free entry or the entry of the link itself. -/
theorem Unregistered.room {table : List (Option L)} (removed : Unregistered before after l)
    (consistent : before.Consistent) (found : before.tables t = some table) :
    ∃ rest, after.tables t = some rest ∧
      (none ∈ rest ↔ none ∈ table ∨ before.target l = some t) := by
  refine ⟨_, by rw [removed.tables, found, Option.map_some], ?_⟩
  split
  · rename_i pointing
    have member := (consistent.mem_table found).mpr pointing
    exact iff_of_true (mem_replace member none) (.inr pointing)
  · rename_i elsewhere
    rw [or_iff_left elsewhere]

/-- An assignment has left the old target of a link and has written the new one. -/
structure Redirected (before after : State L T) (l : L) (target : L → Option T) : Prop where
  target : after.target = target
  dangled : after.dangled = before.dangled
  tables : after.tables = (before.removeOwnRef l).tables

theorem Redirected.here {target : L → Option T} (redirected : Redirected before after l target)
    (consistent : before.Consistent) (u : T) : after.backRefs u l = 0 :=
  (backRefs_congr (congrFun redirected.tables u)).trans (consistent.removeOwnRef.here consistent u)

theorem Redirected.elsewhere {target : L → Option T} (redirected : Redirected before after l target)
    (consistent : before.Consistent) (u : T) (different : l ≠ x) :
    after.backRefs u x = before.backRefs u x :=
  (backRefs_congr (congrFun redirected.tables u)).trans
    (consistent.removeOwnRef.elsewhere u different)

theorem Redirected.living {target : L → Option T} (redirected : Redirected before after l target)
    (consistent : before.Consistent) (u : T) :
    (after.tables u).isSome = (before.tables u).isSome := by
  rw [redirected.tables, consistent.removeOwnRef.living]

/-- The state of a copy assignment before it registers the link. -/
theorem Consistent.redirected_copy (consistent : state.Consistent) (live : (state.links l).isSome)
    (other : L) :
    Redirected state ((state.removeOwnRef l).setTarget l ((state.removeOwnRef l).target other)) l
      (Function.update state.target l (state.target other)) := by
  have removed := consistent.removeOwnRef (l := l)
  have live : ((state.removeOwnRef l).links l).isSome := removed.links ▸ live
  refine ⟨?_, (dangled_setTarget live).trans removed.dangled, tables_setTarget⟩
  rw [target_setTarget live, removed.target]

/-- A link is registered with its new target where the table has room. -/
theorem Consistent.copyAssignLink (consistent : state.Consistent) (live : (state.links l).isSome)
    (room : ∀ t table, state.target other = some t → state.tables t = some table →
      none ∈ table ∨ state.target l = some t) :
    (state.copyAssignLink l other).Becomes (Function.update state.target l (state.target other))
      fun u => (state.tables u).isSome := by
  have redirected := consistent.redirected_copy live other
  have assigned := congrFun redirected.target l
  rw [Function.update_self] at assigned
  simp only [State.copyAssignLink]
  cases pointing : state.target other with
  | none =>
      rw [pointing] at redirected assigned
      simp only [assigned]
      refine ⟨consistent.update redirected.target redirected.dangled (fun u => ?_) fun u x different => ?_,
        redirected.target, redirected.living consistent⟩
      · rw [redirected.here consistent, if_neg (Option.some_ne_none u).symm]
      · exact redirected.elsewhere consistent u different
  | some t =>
      rw [pointing] at redirected assigned
      obtain ⟨table, found, -⟩ := consistent.target_live pointing
      obtain ⟨rest, left, free⟩ := consistent.removeOwnRef.room consistent found
      rw [← redirected.tables] at left
      simp only [assigned]
      rcases exchangeEntry_cases none (some l) left with ⟨-, added, ran, exchanged⟩ | ⟨taken, -⟩
      · rw [addBackRef, ran]
        have target := exchanged.target.trans redirected.target
        refine ⟨consistent.update target (exchanged.dangled.trans redirected.dangled) (fun u => ?_)
          fun u x different => ?_, target, fun u => ?_⟩
        · rw [exchanged.added (Option.some_ne_none l).symm, redirected.here consistent, Nat.zero_add,
            if_congr (eq_comm.trans Option.some_inj.symm) rfl rfl]
        · have kept := exchanged.elsewhere u (Option.some_ne_none x).symm
            fun same => different (Option.some.inj same)
          exact kept.trans (redirected.elsewhere consistent u different)
        · rw [exchanged.living, redirected.living consistent]
      · exact absurd (free.mpr (room t table pointing found)) taken

/-- A full table does not take the link, which points to the target all the same. -/
theorem Consistent.copyAssignLink_full {table : List (Option L)} (consistent : state.Consistent)
    (live : (state.links l).isSome) (pointing : state.target other = some t)
    (found : state.tables t = some table) (full : none ∉ table) (elsewhere : state.target l ≠ some t) :
    (state.copyAssignLink l other).target l = some t ∧ ¬(state.copyAssignLink l other).Consistent := by
  have redirected := consistent.redirected_copy live other
  have assigned := congrFun redirected.target l
  rw [Function.update_self, pointing] at assigned
  obtain ⟨rest, left, free⟩ := consistent.removeOwnRef.room consistent found
  rw [← redirected.tables] at left
  have unchanged : state.copyAssignLink l other =
      (state.removeOwnRef l).setTarget l ((state.removeOwnRef l).target other) := by
    simp only [State.copyAssignLink, assigned]
    rcases exchangeEntry_cases none (some l) left with ⟨taken, -⟩ | ⟨-, ran⟩
    · exact absurd (free.mp taken) (not_or.mpr ⟨full, elsewhere⟩)
    · rw [addBackRef, ran]
  rw [unchanged]
  refine ⟨assigned, fun after => ?_⟩
  have counts := after.counted t l
  rw [redirected.here consistent, if_pos assigned] at counts
  contradiction

/-- The state of a move assignment before it tells the target. -/
theorem Consistent.redirected_move (consistent : state.Consistent) (live : (state.links l).isSome)
    (otherLive : (state.links other).isSome) :
    Redirected state (((state.removeOwnRef l).setTarget other none).setTarget l
        ((state.removeOwnRef l).target other)) l
      (Function.update (Function.update state.target other none) l (state.target other)) := by
  have removed := consistent.removeOwnRef (l := l)
  have live : ((state.removeOwnRef l).links l).isSome := removed.links ▸ live
  have otherLive : ((state.removeOwnRef l).links other).isSome := removed.links ▸ otherLive
  have stillLive : (((state.removeOwnRef l).setTarget other none).links l).isSome :=
    live_setTarget live
  refine ⟨?_, ?_, tables_setTarget.trans tables_setTarget⟩
  · rw [target_setTarget stillLive, target_setTarget otherLive, removed.target]
  · rw [dangled_setTarget stillLive, dangled_setTarget otherLive, removed.dangled]

/-- A move between two links hands the place in the table over. -/
theorem Consistent.moveAssignLink (consistent : state.Consistent) (different : l ≠ other)
    (live : (state.links l).isSome) (otherLive : (state.links other).isSome) :
    (state.moveAssignLink l other).Becomes
      (Function.update (Function.update state.target other none) l (state.target other))
      fun u => (state.tables u).isSome := by
  have redirected := consistent.redirected_move live otherLive
  have assigned := congrFun redirected.target l
  rw [Function.update_self] at assigned
  simp only [State.moveAssignLink]
  cases pointing : state.target other with
  | none =>
      rw [pointing] at redirected assigned
      have target := redirected.target
      rw [← pointing, Function.update_eq_self, pointing] at target
      simp only [assigned]
      rw [← pointing, Function.update_eq_self, pointing]
      refine ⟨consistent.update target redirected.dangled (fun u => ?_) fun u x different => ?_,
        target, redirected.living consistent⟩
      · rw [redirected.here consistent, if_neg nofun]
      · exact redirected.elsewhere consistent u different
  | some t =>
      rw [pointing] at redirected assigned
      simp only [assigned]
      rw [← funext (redirected.living consistent)]
      exact consistent.handOver different pointing redirected.target redirected.dangled
        (redirected.here consistent) fun u x => redirected.elsewhere consistent u

theorem removeOwnRef_null (null : state.target l = none) : state.removeOwnRef l = state := by
  rw [removeOwnRef, null]

theorem copyAssignLink_self_null (live : (state.links l).isSome) (null : state.target l = none) :
    state.copyAssignLink l l = state := by
  simp only [State.copyAssignLink, removeOwnRef_null null, null, setTarget_same live null]

theorem moveAssignLink_self_null (live : (state.links l).isSome) (null : state.target l = none) :
    state.moveAssignLink l l = state := by
  simp only [State.moveAssignLink, removeOwnRef_null null, null, setTarget_same live null]

/-- A copy of a link to itself gives its entry up and takes the first free one. -/
theorem copyAssignLink_self {table : List (Option L)} (pointing : state.target l = some t)
    (found : state.tables t = some table) (member : some l ∈ table) :
    state.copyAssignLink l l = { state with
      tables := Function.update state.tables t
        (some ((table.replace (some l) none).replace none (some l))) } := by
  have live : (state.links l).isSome := live_of_target pointing
  have removed : state.removeOwnRef l = { state with
      tables := Function.update state.tables t (some (table.replace (some l) none)) } := by
    simp only [State.removeOwnRef, pointing, removeBackRef, exchangeEntry, found, if_pos member]
  have free : none ∈ table.replace (some l) none := mem_replace member none
  have kept : (state.removeOwnRef l).target l = some t := by
    rw [removed]
    exact pointing
  have written : (state.removeOwnRef l).setTarget l (some t) = state.removeOwnRef l := by
    refine setTarget_same ?_ kept
    rw [removed]
    exact live
  simp only [State.copyAssignLink, kept, written]
  rw [removed]
  simp only [addBackRef, exchangeEntry, Function.update_self, if_pos free, Function.update_idem]

/-- A link that is moved to itself points to a target that does not know it. -/
theorem Consistent.moveAssignLink_self (consistent : state.Consistent)
    (pointing : state.target l = some t) : ¬(state.moveAssignLink l l).Consistent := by
  have live : (state.links l).isSome := live_of_target pointing
  have redirected := consistent.redirected_move live live
  rw [Function.update_idem, pointing] at redirected
  have assigned := congrFun redirected.target l
  rw [Function.update_self] at assigned
  obtain ⟨table, found, -⟩ := consistent.target_live pointing
  have unknown := redirected.here consistent t
  have left := consistent.removeOwnRef.tables (l := l) t
  rw [← redirected.tables, found, Option.map_some] at left
  have unchanged : state.moveAssignLink l l =
      ((state.removeOwnRef l).setTarget l none).setTarget l ((state.removeOwnRef l).target l) := by
    simp only [State.moveAssignLink, assigned]
    rcases exchangeEntry_cases (some l) (some l) left with ⟨member, -⟩ | ⟨-, ran⟩
    · rw [backRefs_of_table left] at unknown
      exact absurd member (List.count_eq_zero.mp unknown)
    · rw [updateBackRef, ran]
  rw [unchanged]
  intro after
  have counts := after.counted t l
  rw [unknown, if_pos assigned] at counts
  contradiction

/-- What `l = other` should leave, where the target of the other link has no entry left for a link that
does not point to it yet. -/
structure CopyAssigned (before after : State L T) (l other : L) : Prop where
  consistent : after.Consistent
  full : ∀ t table, before.target other = some t → before.tables t = some table → none ∉ table →
    before.target l ≠ some t → after.target l = none
  same : l = other → Unchanged before after

/-- What `l = std::move( other )` should leave. -/
structure MoveAssigned (before after : State L T) (l other : L) : Prop where
  consistent : after.Consistent
  same : l = other → after = before

theorem copyAssigned_iff (consistent : state.Consistent) (live : (state.links l).isSome) :
    CopyAssigned state (state.copyAssignLink l other) l other ↔
      ∀ t table, state.target other = some t → state.tables t = some table →
        none ∈ table ∨ state.target l = some t := by
  constructor
  · intro assigned t table pointing found
    by_contra crowded
    obtain ⟨full, elsewhere⟩ := not_or.mp crowded
    exact (consistent.copyAssignLink_full live pointing found full elsewhere).2 assigned.consistent
  · intro room
    refine ⟨(consistent.copyAssignLink live room).consistent, ?_, ?_⟩
    · intro t table pointing found full elsewhere
      exact absurd (room t table pointing found) (not_or.mpr ⟨full, elsewhere⟩)
    · rintro rfl
      cases pointing : state.target l with
      | none =>
          rw [copyAssignLink_self_null live pointing]
          exact .refl
      | some t =>
          obtain ⟨table, found, member⟩ := consistent.target_live pointing
          rw [copyAssignLink_self pointing found member]
          refine ⟨rfl, rfl, fun u => ?_⟩
          simp only [Function.update_apply]
          split
          · rename_i here
            rw [here, found]
            exact .some (replace_replace_perm (Option.some_ne_none l) member)
          · exact Unchanged.refl.tables u

theorem moveAssigned_iff (consistent : state.Consistent) (live : (state.links l).isSome)
    (otherLive : (state.links other).isSome) :
    MoveAssigned state (state.moveAssignLink l other) l other ↔
      (l = other → state.target other = none) := by
  constructor
  · rintro assigned rfl
    rw [Option.eq_none_iff_forall_ne_some]
    intro t pointing
    exact consistent.moveAssignLink_self pointing assigned.consistent
  · intro null
    by_cases same : l = other
    · subst same
      have unchanged := moveAssignLink_self_null live (null rfl)
      exact ⟨unchanged.symm ▸ consistent, fun _ => unchanged⟩
    · exact ⟨(consistent.moveAssignLink same live otherLive).consistent, fun here => absurd here same⟩

/-- The self-assignment of a link keeps each entry at its place when no free entry comes first. -/
theorem copyAssignLink_self_eq_iff (consistent : state.Consistent) (live : (state.links l).isSome) :
    state.copyAssignLink l l = state ↔
      ∀ t table, state.target l = some t → state.tables t = some table →
        none ∉ table.takeWhile (· != some l) := by
  cases pointing : state.target l with
  | none => exact iff_of_true (copyAssignLink_self_null live pointing) nofun
  | some t =>
      obtain ⟨table, found, member⟩ := consistent.target_live pointing
      have entries : (table.replace (some l) none).replace none (some l) = table ↔ _ :=
        replace_replace_eq (Option.some_ne_none l) member
      rw [copyAssignLink_self pointing found member]
      constructor
      · rintro same u other here there
        cases here
        rw [found] at there
        cases there
        refine entries.mp (Option.some.inj ?_)
        rw [← found, ← congrFun (congrArg State.tables same) t]
        exact (Function.update_self t _ state.tables).symm
      · intro early
        rw [entries.mpr (early t table rfl found), ← found, Function.update_eq_self]

/-- A copy keeps the state consistent when the target has an entry for the link, and a move when it is not
from a connected link to itself. -/
theorem link_assignments (consistent : state.Consistent) (live : (state.links l).isSome)
    (otherLive : (state.links other).isSome) :
    (CopyAssigned state (state.copyAssignLink l other) l other ↔
      ∀ t table, state.target other = some t → state.tables t = some table →
        none ∈ table ∨ state.target l = some t) ∧
      (MoveAssigned state (state.moveAssignLink l other) l other ↔
        (l = other → state.target other = none)) ∧
      (state.copyAssignLink l l = state ↔
        ∀ t table, state.target l = some t → state.tables t = some table →
          none ∉ table.takeWhile (· != some l)) :=
  ⟨copyAssigned_iff consistent live, moveAssigned_iff consistent live otherLive,
    copyAssignLink_self_eq_iff consistent live⟩

end State

/-- A link takes the only entry of a target. -/
def crowdedActions : List (Action Nat Nat) :=
  [.constructTarget 0 1, .constructLink 0, .connect 0 0, .constructLink 1]

theorem link_assignments_crowded :
    ∃ history state, (system Nat Nat).execute {} crowdedActions = some (history, state) ∧
      (State.CopyAssigned state (state.copyAssignLink 1 0) 1 0 ↔
        ∀ t table, state.target 0 = some t → state.tables t = some table →
          none ∈ table ∨ state.target 1 = some t) ∧
        (State.MoveAssigned state (state.moveAssignLink 1 0) 1 0 ↔ (1 = 0 → state.target 0 = none)) ∧
        (state.copyAssignLink 1 1 = state ↔
          ∀ t table, state.target 1 = some t → state.tables t = some table →
            none ∉ table.takeWhile (· != some 1)) := by
  obtain ⟨history, state, executed, live, otherLive⟩ : ∃ history state,
      (system Nat Nat).execute {} crowdedActions = some (history, state) ∧
        (state.links 1).isSome ∧ (state.links 0).isSome := ⟨_, _, rfl, rfl, rfl⟩
  have run := StepSystem.run_of_execute crowdedActions executed
  exact ⟨history, state, executed, State.link_assignments (follows_of_run run).1 live otherLive⟩

/-- A copy of the link to the full target and a move of the link to itself leave a link that the target
does not know. -/
theorem link_assignments_unknown :
    ∃ history state, (system Nat Nat).execute {} crowdedActions = some (history, state) ∧
      state.Consistent ∧ (state.links 0).isSome ∧ (state.links 1).isSome ∧
      ¬State.CopyAssigned state (state.copyAssignLink 1 0) 1 0 ∧
      ¬State.MoveAssigned state (state.moveAssignLink 0 0) 0 0 := by
  refine ⟨_, _, rfl, (follows_of_run (StepSystem.run_of_execute crowdedActions rfl)).1, rfl, rfl, ?_, ?_⟩
  · intro assigned
    exact absurd (assigned.consistent.counted 0 1) (by decide)
  · intro assigned
    exact absurd (assigned.consistent.counted 0 0) (by decide)

end MartCommon.Experimental.Link
