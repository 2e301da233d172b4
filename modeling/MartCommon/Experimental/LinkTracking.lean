import MartCommon.Experimental.LinkConsistency
import MartCommon.Library.Ownership

namespace MartCommon.Experimental.Link

open Library

variable {L T : Type*}

/-- What links are for. Each target object has a name of its own and an address that changes when it
moves. Each link aims at the object that it was connected to. -/
structure Tracked (L T : Type*) where
  objects : Nat := 0
  home : T → Option Nat := fun _ => none
  aim : L → Option Nat := fun _ => none

namespace Tracked

variable (tracked : Tracked L T)

def aimAt [DecidableEq L] (l : L) (object : Option Nat) : Tracked L T :=
  { tracked with aim := Function.update tracked.aim l object }

variable [DecidableEq T]

/-- A new object comes to an address. -/
def settle (t : T) : Tracked L T :=
  { tracked with
    objects := tracked.objects + 1
    home := Function.update tracked.home t (some tracked.objects) }

/-- An object changes its address. -/
def move (t other : T) : Tracked L T :=
  { tracked with
    home := Function.update (Function.update tracked.home other none) t (tracked.home other) }

/-- An object ends, and nothing aims at it any more. -/
def leave (t : T) : Tracked L T :=
  { tracked with
    home := Function.update tracked.home t none
    aim := fun l => if tracked.aim l = tracked.home t then none else tracked.aim l }

variable [DecidableEq L]

def after : Event L T → Tracked L T
  | (.connect l t, true) => tracked.aimAt l (tracked.home t)
  | (.copyConstructLink l other, true) => tracked.aimAt l (tracked.aim other)
  | (.disconnect l, _) => tracked.aimAt l none
  | (.moveConstructLink l other, _) => (tracked.aimAt other none).aimAt l (tracked.aim other)
  | (.constructTarget t _, _) => tracked.settle t
  | (.copyConstructTarget t _, _) => tracked.settle t
  | (.moveConstructTarget t other, _) => (tracked.move t other).settle other
  | (.destroyTarget t, _) => tracked.leave t
  | _ => tracked

/-- The objects and the aims after a history. -/
def of (history : List (Event L T)) : Tracked L T :=
  history.foldl (fun tracked event => tracked.after event) {}

end Tracked

/-- Links with these targets point to the current addresses of the objects they aim at. -/
structure Tracks (target : L → Option T) (living : T → Bool) (tracked : Tracked L T) : Prop where
  aimed : ∀ l, tracked.aim l = (target l).bind tracked.home
  housed : ∀ t, (tracked.home t).isSome = living t
  distinct : ∀ t u object, tracked.home t = some object → tracked.home u = some object → t = u
  named : ∀ t object, tracked.home t = some object → object < tracked.objects

namespace Tracks

variable {target : L → Option T} {living : T → Bool} {tracked : Tracked L T}

theorem aimAt [DecidableEq L] (tracks : Tracks target living tracked) (l : L) (value : Option T) :
    Tracks (Function.update target l value) living (tracked.aimAt l (value.bind tracked.home)) where
  aimed x := by
    by_cases same : x = l
    · subst same
      simp [Tracked.aimAt]
    · simp [Tracked.aimAt, Function.update_of_ne same, tracks.aimed]
  housed := tracks.housed
  distinct := tracks.distinct
  named := tracks.named

variable [DecidableEq T]

/-- No link points to the place of a new object. -/
theorem settle {t : T} (tracks : Tracks target living tracked) (away : ∀ l, target l ≠ some t) :
    Tracks target (Function.update living t true) (tracked.settle t) where
  aimed l := by
    rw [Tracked.settle, tracks.aimed]
    cases pointing : target l with
    | none => rfl
    | some u =>
        have other : u ≠ t := fun same => away l (same ▸ pointing)
        exact (Function.update_of_ne other _ _).symm
  housed u := by
    by_cases same : u = t
    · subst same
      simp [Tracked.settle]
    · simp [Tracked.settle, Function.update_of_ne same, tracks.housed]
  distinct := by
    apply Ownership.unique_update tracks.distinct
    intro u object _ new found
    rw [← Option.some.inj new] at found
    exact Nat.lt_irrefl _ (tracks.named u _ found)
  named u object found := by
    simp only [Tracked.settle, Function.update_apply] at found
    split at found
    · rw [← Option.some.inj found]
      exact Nat.lt_succ_self _
    · exact Nat.lt_succ_of_lt (tracks.named u object found)

/-- The links follow an object to its new address. -/
theorem move {t other : T} (tracks : Tracks target living tracked) (away : ∀ l, target l ≠ some t)
    (alive : living other = true) :
    Tracks (fun l => if target l = some other then some t else target l)
      (Function.update (Function.update living other false) t true) (tracked.move t other) where
  aimed l := by
    simp only [Tracked.move, tracks.aimed]
    by_cases here : target l = some other
    · rw [if_pos here, here, Option.bind_some, Option.bind_some, Function.update_self]
    · rw [if_neg here]
      cases pointing : target l with
      | none => rfl
      | some u =>
          have notNew : u ≠ t := fun same => away l (same ▸ pointing)
          have notOld : u ≠ other := fun same => here (same ▸ pointing)
          rw [Option.bind_some, Option.bind_some, Function.update_of_ne notNew,
            Function.update_of_ne notOld]
  housed u := by
    simp only [Tracked.move, Function.update_apply]
    split
    · rw [tracks.housed, alive]
    · split
      · rfl
      · exact tracks.housed u
  distinct := Ownership.unique_move tracks.distinct t other
  named u object found := by
    simp only [Tracked.move, Function.update_apply] at found
    split at found
    · exact tracks.named _ _ found
    · split at found
      · contradiction
      · exact tracks.named _ _ found

theorem leave {t : T} (tracks : Tracks target living tracked) (alive : living t = true) :
    Tracks (fun l => if target l = some t then none else target l) (Function.update living t false)
      (tracked.leave t) where
  aimed l := by
    rw [← tracks.housed t] at alive
    obtain ⟨object, found⟩ := Option.isSome_iff_exists.mp alive
    simp only [Tracked.leave, tracks.aimed]
    cases pointing : target l with
    | none => simp
    | some u =>
        by_cases same : u = t
        · subst same
          simp
        · have elsewhere : tracked.home u ≠ tracked.home t := by
            intro equal
            exact same (tracks.distinct u t object (equal.trans found) found)
          simp [same, elsewhere]
  housed u := by
    simp only [Tracked.leave, Function.update_apply]
    split
    · rfl
    · exact tracks.housed u
  distinct := Ownership.unique_update tracks.distinct nofun
  named u object found := by
    simp only [Tracked.leave, Function.update_apply] at found
    split at found
    · contradiction
    · exact tracks.named u object found

end Tracks

variable [DecidableEq L] [DecidableEq T] {before after : State L T} {tracked : Tracked L T}

/-- The targets of the links in a state belong to the tracked objects. -/
def State.Follows (state : State L T) (tracked : Tracked L T) : Prop :=
  state.Consistent ∧ Tracks state.target (fun t => (state.tables t).isSome) tracked

theorem State.Becomes.follows {target : L → Option T} {living : T → Bool}
    (becomes : after.Becomes target living) (tracks : Tracks target living tracked) :
    after.Follows tracked := by
  refine ⟨becomes.consistent, ?_⟩
  rw [becomes.target, funext becomes.living]
  exact tracks

/-- Each action keeps the links at the objects they aim at. -/
theorem State.Follows.apply {action : Action L T} (follows : before.Follows tracked)
    (allowed : action.Allowed before) :
    (action.apply before).2.Follows (tracked.after (action, (action.apply before).1)) := by
  obtain ⟨consistent, tracks⟩ := follows
  cases action with
  | constructLink l => exact (consistent.constructLink allowed).follows tracks
  | destroyLink l => exact (consistent.destroyLink allowed).follows tracks
  | disconnect l => exact (consistent.disconnect allowed).follows (tracks.aimAt l none)
  | connect l t =>
      have becomes := consistent.connect allowed.1 allowed.2
      change (before.connect l t).2.Follows (tracked.after (.connect l t, (before.connect l t).1))
      cases connected : (before.connect l t).1 with
      | true =>
          rw [connected] at becomes
          exact becomes.follows (tracks.aimAt l (some t))
      | false =>
          rw [connected] at becomes
          exact becomes.follows tracks
  | copyConstructLink l other =>
      have becomes : (before.copyConstructLink l other).2.Becomes _ _ :=
        consistent.copyConstructLink allowed.1
      change (before.copyConstructLink l other).2.Follows
        (tracked.after (.copyConstructLink l other, (before.copyConstructLink l other).1))
      cases connected : (before.copyConstructLink l other).1 with
      | true =>
          rw [connected] at becomes
          refine becomes.follows ?_
          rw [Tracked.after, tracks.aimed]
          exact tracks.aimAt l (before.target other)
      | false =>
          rw [connected] at becomes
          exact becomes.follows tracks
  | moveConstructLink l other =>
      refine (consistent.moveConstructLink allowed.1 allowed.2).follows ?_
      rw [Tracked.after, tracks.aimed]
      exact (tracks.aimAt other none).aimAt l (before.target other)
  | constructTarget t maxLink =>
      exact (consistent.constructTarget allowed maxLink).follows
        (tracks.settle fun l => consistent.not_pointing allowed)
  | copyConstructTarget t other =>
      obtain ⟨absent, live⟩ := allowed
      obtain ⟨table, found⟩ := Option.isSome_iff_exists.mp live
      have result : before.copyConstructTarget t other = before.constructTarget t table.length := by
        rw [State.copyConstructTarget, found]
      change (before.copyConstructTarget t other).Follows _
      rw [result]
      exact (consistent.constructTarget absent table.length).follows
        (tracks.settle fun l => consistent.not_pointing absent)
  | copyAssignTarget t other => exact ⟨consistent, tracks⟩
  | moveConstructTarget t other =>
      obtain ⟨absent, live⟩ := allowed
      have different : t ≠ other := by
        rintro rfl
        rw [absent] at live
        contradiction
      have moved := (tracks.move (fun l => consistent.not_pointing absent) live).settle (t := other)
        fun l => by
          split
          · exact fun same => different (Option.some.inj same)
          · assumption
      have living : Function.update (Function.update (Function.update
          (fun u => (before.tables u).isSome) other false) t true) other true =
          Function.update (fun u => (before.tables u).isSome) t true := by
        rw [Function.update_comm different, Function.update_idem, ← live, Function.update_eq_self]
      rw [living] at moved
      exact (consistent.moveConstructTarget absent live).follows moved
  | destroyTarget t => exact (consistent.destroyTarget allowed).follows (tracks.leave allowed)

/-- Each run keeps the links at the objects they aim at. -/
theorem follows_of_run {history : List (Event L T)} {state : State L T}
    (run : (system L T).Run {} history state) : state.Follows (Tracked.of history) := by
  refine run.invariant (fun history state => state.Follows (Tracked.of history)) ?_ ?_
  · refine ⟨⟨fun t l => ?_, rfl⟩, ⟨fun l => rfl, fun t => rfl, nofun, nofun⟩⟩
    rw [State.backRefs_of_dead rfl, if_neg nofun]
  · intro history before action event after follows stepped
    simp only [system, Option.ite_none_right_eq_some, Option.some.injEq, Prod.mk.injEq] at stepped
    obtain ⟨allowed, rfl, rfl⟩ := stepped
    rw [Tracked.of, List.foldl_append]
    exact follows.apply allowed

/-- In every run each link is null or points to the current address of the object it was connected to,
and a target knows each of its links by exactly one entry. -/
theorem links_follow {history : List (Event L T)} {state : State L T}
    (run : (system L T).Run {} history state) :
    (∀ l t, state.links l = some (some t) ↔ ∃ table, state.tables t = some table ∧ some l ∈ table) ∧
      (∀ l t table, state.tables t = some table → some l ∈ table → table.count (some l) = 1) ∧
      (∀ l t, state.links l = some (some t) ↔
        ∃ object, (Tracked.of history).home t = some object ∧
          (Tracked.of history).aim l = some object) ∧
      state.dangled = false := by
  obtain ⟨consistent, tracks⟩ := follows_of_run run
  have pointing (l : L) (t : T) : state.links l = some (some t) ↔ state.target l = some t :=
    Option.join_eq_some_iff.symm
  refine ⟨fun l t => ?_, fun l t table found member => ?_, fun l t => ?_, consistent.intact⟩
  · rw [pointing]
    refine ⟨consistent.target_live, ?_⟩
    rintro ⟨table, found, member⟩
    exact (consistent.mem_table found).mp member
  · rw [← State.backRefs_of_table found, consistent.counted,
      if_pos ((consistent.mem_table found).mp member)]
  · rw [pointing, tracks.aimed]
    constructor
    · intro points
      obtain ⟨table, found, -⟩ := consistent.target_live points
      have housed := tracks.housed t
      rw [found] at housed
      obtain ⟨object, home⟩ := Option.isSome_iff_exists.mp housed
      exact ⟨object, home, by rw [points, Option.bind_some, home]⟩
    · rintro ⟨object, home, aimed⟩
      obtain ⟨u, points, homeToo⟩ := Option.bind_eq_some_iff.mp aimed
      rw [points, tracks.distinct u t object homeToo home]

/-- A link follows its target to another address, where a second link finds no place. -/
def movedActions : List (Action Nat Nat) :=
  [.constructTarget 0 1, .constructLink 0, .connect 0 0, .connect 0 0, .moveConstructTarget 1 0,
    .copyConstructLink 1 0, .destroyTarget 0]

theorem links_follow_moved :
    ∃ history state, (system Nat Nat).execute {} movedActions = some (history, state) ∧
      (∀ l t, state.links l = some (some t) ↔
        ∃ table, state.tables t = some table ∧ some l ∈ table) ∧
      (∀ l t table, state.tables t = some table → some l ∈ table → table.count (some l) = 1) ∧
      (∀ l t, state.links l = some (some t) ↔
        ∃ object, (Tracked.of history).home t = some object ∧
          (Tracked.of history).aim l = some object) ∧
      state.dangled = false := by
  obtain ⟨history, state, executed⟩ : ∃ history state,
      (system Nat Nat).execute {} movedActions = some (history, state) := ⟨_, _, rfl⟩
  exact ⟨history, state, executed, links_follow (StepSystem.run_of_execute movedActions executed)⟩

end MartCommon.Experimental.Link
