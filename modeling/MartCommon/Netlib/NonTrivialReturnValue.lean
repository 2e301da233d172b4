import MartCommon.Library.Lifetime
import MartCommon.Library.StepSystem
import MartCommon.Netlib.PortLayer

namespace MartCommon.Netlib

open Library Library.Lifetime PortLayer

/-- What the standard traits tell about `T`: `is_trivially_default_constructible` and
`is_trivially_move_assignable`. -/
structure Traits where
  trivialDefault : Bool
  trivialMove : Bool

/-- Where a `T` is trivial, an assignment to a member of a union makes it the active one. -/
def Traits.assignmentConstructs (traits : Traits) : Bool := traits.trivialDefault && traits.trivialMove

/-- What the storage of the union holds. -/
inductive Member (T : Type*) where
  | none
  | errc (errc : ErrorCode)
  | value (content : T)
  deriving DecidableEq

/-- The value that is left after a move. -/
def Member.movedFrom {T : Type*} (moved : T → T) : Member T → Member T
  | .value content => .value (moved content)
  | other => other

structure NonTrivialReturnValue (T : Type*) where
  member : Member T := .none
  success : Bool := false
  deriving DecidableEq

namespace NonTrivialReturnValue

variable {T : Type*}

/-- `~NonTrivialReturnValue()` accesses the member `_value`. -/
def destruct (place : Nat) (this : NonTrivialReturnValue T) : List (Access Nat) :=
  if this.success then [.destroyed place] else []

/-- What a move construction accesses and makes. -/
structure Moved (T : Type*) where
  accesses : List (Access Nat)
  target : NonTrivialReturnValue T
  source : NonTrivialReturnValue T

/-- `NonTrivialReturnValue( NonTrivialReturnValue&& other )`. Its own flag has been initialized before it
is read. -/
def moveConstruct (traits : Traits) (moved : T → T) (place source : Nat)
    (other : NonTrivialReturnValue T) : Moved T :=
  let this : NonTrivialReturnValue T := {}
  let destroyed := if this.success then [.destroyed place] else []
  if other.success then
    let created := if traits.assignmentConstructs then [.constructed place] else []
    { accesses := destroyed ++ created ++ [.assigned place, .movedFrom source]
      target := ⟨other.member, other.success⟩
      source := ⟨other.member.movedFrom moved, other.success⟩ }
  else
    { accesses := destroyed, target := ⟨other.member, other.success⟩, source := other }

inductive Action (T : Type*) where
  | default (object : Nat)
  | value (object : Nat) (content : T)
  | rvalue (object : Nat) (content : T)
  | errc (object : Nat) (errc : ErrorCode)
  | move (object source : Nat)
  | destroy (object : Nat)

/-- The accesses to `_value`, and the source of a move as it was with the new object. -/
structure Event (T : Type*) where
  accesses : List (Access Nat) := []
  moved : Option (NonTrivialReturnValue T × NonTrivialReturnValue T) := none

abbrev Objects (T : Type*) := Nat → Option (NonTrivialReturnValue T)

/-- A constructor that stands for itself. -/
def construct (objects : Objects T) (object : Nat) (accesses : List (Access Nat))
    (this : NonTrivialReturnValue T) : Option (Event T × Objects T) :=
  if (objects object).isSome then none
  else some ({ accesses := accesses }, Function.update objects object (some this))

/-- A program with return values of one type. The default constructor is deleted where `T` has none that
is trivial, and there are no copies and no assignments. -/
def system (traits : Traits) (moved : T → T) : StepSystem (Objects T) (Action T) (Event T) where
  step objects
    | .default object => if traits.trivialDefault then construct objects object [] {} else none
    | .value object content | .rvalue object content =>
        construct objects object [.constructed object] ⟨.value content, true⟩
    | .errc object errc => construct objects object [] ⟨.errc errc, false⟩
    | .move object source =>
        if (objects object).isSome then none
        else (objects source).map fun other =>
          let made := moveConstruct traits moved object source other
          (⟨made.accesses, some (other, made.target)⟩,
            Function.update (Function.update objects source (some made.source)) object
              (some made.target))
    | .destroy object => (objects object).map fun this =>
        ({ accesses := this.destruct object }, Function.update objects object none)

/-- All accesses to `_value` in a run are lawful, and where no object is left, as many values have been
destroyed as have been constructed. Moves keep the state and the payload. -/
structure Sound (events : List (Event T)) (final : Objects T) : Prop where
  lawful : (follow (fun _ => false) (events.flatMap Event.accesses)).isSome
  destroyed : ∀ object, final object = none →
    (events.flatMap Event.accesses).count (.constructed object) =
      (events.flatMap Event.accesses).count (.destroyed object)
  kept : ∀ event ∈ events, ∀ source target, event.moved = some (source, target) →
    target.success = source.success ∧ target.member = source.member

/-- The condition on a step: what is moved is an error, or an assignment constructs the value. -/
def Action.Allowed (traits : Traits) (objects : Objects T) : Action T → Prop
  | .move _ source => traits.assignmentConstructs = true ∨
      ∀ other, objects source = some other → other.success = false
  | _ => True

/-- The objects in which a value lives, where the flag tells the truth. -/
def living (objects : Objects T) (object : Nat) : Bool :=
  (objects object).elim false NonTrivialReturnValue.success

variable {objects after : Objects T} {event : Event T} {traits : Traits} {moved : T → T}

theorem living_update (objects : Objects T) (object : Nat) (this : NonTrivialReturnValue T) :
    living (Function.update objects object (some this)) =
      Function.update (living objects) object this.success :=
  Function.comp_update (Option.elim · false NonTrivialReturnValue.success) objects object (some this)

theorem living_remove (objects : Objects T) (object : Nat) :
    living (Function.update objects object none) = Function.update (living objects) object false :=
  Function.comp_update (Option.elim · false NonTrivialReturnValue.success) objects object none

theorem living_fresh {object : Nat} (fresh : objects object = none) : living objects object = false := by
  rw [living, fresh]
  rfl

/-- A constructor that makes a value where it says so is lawful. -/
theorem construct_follows {object : Nat} {accesses : List (Access Nat)} {this : NonTrivialReturnValue T}
    (constructed : construct objects object accesses this = some (event, after))
    (made : accesses = if this.success then [.constructed object] else []) :
    follow (living objects) event.accesses = some (living after) ∧ event.moved = none := by
  rw [construct, Option.ite_none_left_eq_some, Option.not_isSome_iff_eq_none, Option.some.injEq,
    Prod.mk.injEq] at constructed
  obtain ⟨fresh, rfl, rfl⟩ := constructed
  have free := living_fresh fresh
  refine ⟨?_, rfl⟩
  rw [living_update, made]
  cases success : this.success with
  | true =>
      rw [if_pos rfl, follow_cons, advance_constructed free]
      rfl
  | false =>
      rw [if_neg Bool.false_ne_true, follow_nil, ← free, Function.update_eq_self]

theorem moveConstruct_error {place source : Nat} {other : NonTrivialReturnValue T}
    (error : other.success = false) :
    moveConstruct traits moved place source other = ⟨[], ⟨other.member, false⟩, other⟩ := by
  simp [moveConstruct, error]

theorem moveConstruct_success {place source : Nat} {other : NonTrivialReturnValue T}
    (success : other.success = true) :
    moveConstruct traits moved place source other =
      ⟨(if traits.assignmentConstructs then [.constructed place] else []) ++
          [.assigned place, .movedFrom source],
        ⟨other.member, true⟩, ⟨other.member.movedFrom moved, true⟩⟩ := by
  simp [moveConstruct, success]

/-- A move from an error leaves the storage alone. A move from a success assigns to it, which is lawful
where the assignment constructs the value. -/
theorem move_follows {object source : Nat} {other : NonTrivialReturnValue T}
    (fresh : objects object = none) (found : objects source = some other)
    (allowed : traits.assignmentConstructs = true ∨ other.success = false) :
    follow (living objects) (moveConstruct traits moved object source other).accesses =
      some (living (Function.update (Function.update objects source
        (some (moveConstruct traits moved object source other).source)) object
          (some (moveConstruct traits moved object source other).target))) := by
  have free := living_fresh fresh
  have apart : source ≠ object := by
    rintro rfl
    rw [fresh] at found
    contradiction
  have before : living objects source = other.success := by
    rw [living, found]
    rfl
  rw [living_update, living_update]
  cases success : other.success with
  | false =>
      rw [success] at before
      rw [moveConstruct_error success, follow_nil, success, ← before, Function.update_eq_self, before,
        ← free, Function.update_eq_self]
  | true =>
      rw [success] at before
      have constructs := allowed.resolve_right (by rw [success]; exact Bool.noConfusion)
      have alive : Function.update (living objects) object true object = true := Function.update_self ..
      have moving : Function.update (living objects) object true source = true := by
        rw [Function.update_of_ne apart, before]
      rw [moveConstruct_success success, if_pos constructs, List.singleton_append, follow_cons,
        advance_constructed free, Option.bind_some, follow_cons, advance_assigned alive,
        Option.bind_some, follow_cons, advance_movedFrom moving, Option.bind_some, follow_nil, ← before,
        Function.update_eq_self, before]

/-- The assignment to a place without a value is not lawful. -/
theorem move_stops {object source : Nat} {other : NonTrivialReturnValue T}
    (fresh : objects object = none) (assigns : traits.assignmentConstructs = false)
    (success : other.success = true) :
    follow (living objects) (moveConstruct traits moved object source other).accesses = none := by
  rw [moveConstruct_success success, assigns, if_neg Bool.false_ne_true, List.nil_append, follow_cons,
    advance_assigned_free (living_fresh fresh)]
  rfl

theorem destroy_follows {object : Nat} {this : NonTrivialReturnValue T}
    (found : objects object = some this) :
    follow (living objects) (this.destruct object) =
      some (living (Function.update objects object none)) := by
  have before : living objects object = this.success := by
    rw [living, found]
    rfl
  rw [living_remove, destruct]
  cases success : this.success with
  | true => rw [if_pos rfl, follow_cons, advance_destroyed (before.trans success)]; rfl
  | false => rw [if_neg Bool.false_ne_true, follow_nil, ← success, ← before, Function.update_eq_self]

/-- An allowed step is lawful, and the flags tell where a value lives behind it. -/
theorem step_follows {action : Action T}
    (step : (system traits moved).step objects action = some (event, after))
    (allowed : action.Allowed traits objects) :
    follow (living objects) event.accesses = some (living after) := by
  cases action with
  | default object =>
      rw [system, Option.ite_none_right_eq_some] at step
      exact (construct_follows step.2 rfl).1
  | value object content | rvalue object content | errc object errc =>
      exact (construct_follows step rfl).1
  | move object source =>
      simp only [system, Option.ite_none_left_eq_some, Option.not_isSome_iff_eq_none,
        Option.map_eq_some_iff, Prod.mk.injEq] at step
      obtain ⟨fresh, other, found, rfl, rfl⟩ := step
      exact move_follows fresh found (allowed.imp_right fun error => error other found)
  | destroy object =>
      obtain ⟨this, found, same⟩ := Option.map_eq_some_iff.mp step
      obtain ⟨rfl, rfl⟩ := Prod.mk.inj same
      exact destroy_follows found

theorem step_stops {action : Action T}
    (step : (system traits moved).step objects action = some (event, after))
    (forbidden : ¬ action.Allowed traits objects) : follow (living objects) event.accesses = none := by
  cases action with
  | default object | value object content | rvalue object content | errc object errc
  | destroy object => exact absurd trivial forbidden
  | move object source =>
      simp only [system, Option.ite_none_left_eq_some, Option.not_isSome_iff_eq_none,
        Option.map_eq_some_iff, Prod.mk.injEq] at step
      obtain ⟨fresh, other, found, rfl, rfl⟩ := step
      simp only [Action.Allowed, found, Option.some.injEq, forall_eq', not_or, Bool.not_eq_true,
        Bool.not_eq_false] at forbidden
      exact move_stops fresh forbidden.1 forbidden.2

/-- A move makes an object with the state and the payload that its source had. -/
theorem step_kept {action : Action T} {source target : NonTrivialReturnValue T}
    (step : (system traits moved).step objects action = some (event, after))
    (pair : event.moved = some (source, target)) :
    target.success = source.success ∧ target.member = source.member := by
  have unmoved (none : event.moved = none) : False := by
    rw [none] at pair
    contradiction
  cases action with
  | default object =>
      rw [system, Option.ite_none_right_eq_some] at step
      exact (unmoved (construct_follows step.2 rfl).2).elim
  | value object content | rvalue object content | errc object errc =>
      exact (unmoved (construct_follows step rfl).2).elim
  | move object from_ =>
      simp only [system, Option.ite_none_left_eq_some, Option.map_eq_some_iff, Prod.mk.injEq] at step
      obtain ⟨-, other, -, rfl, -⟩ := step
      obtain ⟨rfl, rfl⟩ := Prod.mk.inj (Option.some.inj pair)
      unfold moveConstruct
      split <;> exact ⟨rfl, rfl⟩
  | destroy object =>
      obtain ⟨this, -, same⟩ := Option.map_eq_some_iff.mp step
      obtain ⟨rfl, -⟩ := Prod.mk.inj same
      exact (unmoved rfl).elim

/-- All moves of a run keep what they move. -/
theorem run_kept {start final : Objects T} {events : List (Event T)}
    (run : (system traits moved).Run start events final) {event : Event T} (member : event ∈ events)
    {source target : NonTrivialReturnValue T} (pair : event.moved = some (source, target)) :
    target.success = source.success ∧ target.member = source.member := by
  obtain ⟨earlier, later, parts⟩ := List.append_of_mem member
  obtain ⟨before, action, after, -, step⟩ := run.split parts
  exact step_kept step pair

/-- The accesses of a run are lawful exactly where each step is allowed. -/
theorem accesses_follow {actions : List (Action T)} {events : List (Event T)} {final : Objects T}
    (executed : (system traits moved).execute (fun _ => none) actions = some (events, final)) :
    ((system traits moved).Obeys (Action.Allowed traits) (fun _ => none) actions →
        follow (fun _ => false) (events.flatMap Event.accesses) = some (living final)) ∧
      (¬ (system traits moved).Obeys (Action.Allowed traits) (fun _ => none) actions →
        follow (fun _ => false) (events.flatMap Event.accesses) = none) := by
  rw [← foldlM_follow]
  exact StepSystem.execute_monitored (fun alive event => follow alive event.accesses) living
    step_follows step_stops executed

/-- A run is sound if and only if none of its moves takes a value that the assignment does not
construct. -/
theorem sound_iff {actions : List (Action T)} {events : List (Event T)} {final : Objects T}
    (executed : (system traits moved).execute (fun _ => none) actions = some (events, final)) :
    Sound events final ↔
      (system traits moved).Obeys (Action.Allowed traits) (fun _ => none) actions := by
  obtain ⟨follows, stops⟩ := accesses_follow executed
  constructor
  · intro sound
    by_contra forbidden
    have lawful := sound.lawful
    rw [stops forbidden] at lawful
    contradiction
  · intro obeys
    have followed := follows obeys
    constructor
    · rw [followed, Option.isSome_some]
    · intro object gone
      have counts := follow_counts object followed
      rw [living_fresh gone] at counts
      exact counts
    · exact fun event member source target => run_kept (StepSystem.run_of_execute _ executed) member

/-- An error is moved, and both objects are destroyed. -/
theorem sound_error :
    Sound
      [({} : Event (List Nat)), { moved := some (⟨.errc ⟨2⟩, false⟩, ⟨.errc ⟨2⟩, false⟩) }, {}, {}]
      (Function.update (Function.update (Function.update (Function.update (Function.update
        (fun _ => none) 0 (some ⟨.errc ⟨2⟩, false⟩)) 0 (some ⟨.errc ⟨2⟩, false⟩)) 1
          (some ⟨.errc ⟨2⟩, false⟩)) 0 none) 1 none) := by
  have executed : (system ⟨false, false⟩ fun _ => ([] : List Nat)).execute (fun _ => none)
      [.errc 0 ⟨2⟩, .move 1 0, .destroy 0, .destroy 1] = some _ := rfl
  refine (sound_iff executed).mpr ?_
  simp [StepSystem.Obeys, system, construct, Action.Allowed]

/-- A vector is assigned to a place where none has been constructed. -/
theorem unsound_value :
    ¬ ∀ (actions : List (Action (List Nat))) events final,
      (system ⟨false, false⟩ fun _ => []).execute (fun _ => none) actions = some (events, final) →
        Sound events final := by
  intro always
  exact absurd (always [.value 0 [1], .move 1 0] _ _ rfl).lawful (by decide)

end NonTrivialReturnValue

end MartCommon.Netlib
