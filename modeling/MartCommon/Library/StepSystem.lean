import Mathlib.Data.List.Basic
import Mathlib.Logic.Function.Basic

namespace MartCommon.Library

/-- A step system answers an action with an event and the next state, or it refuses the action. -/
structure StepSystem (State Action Event : Type*) where
  step : State → Action → Option (Event × State)

namespace StepSystem

variable {State Action Event : Type*}

/-- A run records the events of the accepted actions from a start state, oldest first. -/
inductive Run (system : StepSystem State Action Event) (start : State) :
    List Event → State → Prop where
  | start : Run system start [] start
  | next {history : List Event} {before after : State} {action : Action} {event : Event}
      (run : Run system start history before)
      (step : system.step before action = some (event, after)) :
      Run system start (history ++ [event]) after

/-- The interpreter takes one action after the other and stops at the first refusal. -/
def execute (system : StepSystem State Action Event) :
    State → List Action → Option (List Event × State)
  | state, [] => some ([], state)
  | state, action :: rest =>
      match system.step state action with
      | none => none
      | some (event, after) =>
          match execute system after rest with
          | none => none
          | some (events, final) => some (event :: events, final)

theorem execute_nil {system : StepSystem State Action Event} {start final : State} {events : List Event} :
    system.execute start [] = some (events, final) ↔ events = [] ∧ final = start := by
  simp only [execute, Option.some.injEq, Prod.mk.injEq, eq_comm]

/-- An execution is its first step and the execution of the other actions. -/
theorem execute_cons_iff {system : StepSystem State Action Event} {start final : State}
    {action : Action} {rest : List Action} {events : List Event} :
    system.execute start (action :: rest) = some (events, final) ↔
      ∃ event middle later, system.step start action = some (event, middle) ∧
        system.execute middle rest = some (later, final) ∧ events = event :: later := by
  constructor
  · intro executed
    simp only [execute] at executed
    split at executed
    · contradiction
    · rename_i event middle stepped
      split at executed
      · contradiction
      · rename_i later _ continued
        simp only [Option.some.injEq, Prod.mk.injEq] at executed
        obtain ⟨rfl, rfl⟩ := executed
        exact ⟨event, middle, later, stepped, continued, rfl⟩
  · rintro ⟨event, middle, later, stepped, continued, rfl⟩
    simp only [execute, stepped, continued]

/-- Executed actions extend a run. -/
theorem Run.execute {system : StepSystem State Action Event} {start before after : State}
    {history events : List Event} (run : system.Run start history before) (actions : List Action)
    (executed : system.execute before actions = some (events, after)) :
    system.Run start (history ++ events) after := by
  induction actions generalizing before history events with
  | nil =>
      obtain ⟨rfl, rfl⟩ := execute_nil.mp executed
      simpa using run
  | cons action rest ih =>
      obtain ⟨event, middle, later, stepped, continued, rfl⟩ := execute_cons_iff.mp executed
      simpa using ih (run.next stepped) continued

/-- An executed list of actions is a run from the first state. -/
theorem run_of_execute {system : StepSystem State Action Event} {start after : State}
    {events : List Event} (actions : List Action)
    (executed : system.execute start actions = some (events, after)) :
    system.Run start events after := by
  simpa using Run.start.execute actions executed

theorem execute_cons {system : StepSystem State Action Event} {state middle final : State}
    {action : Action} {event : Event} {rest : List Action} {later : List Event}
    (stepped : system.step state action = some (event, middle))
    (continued : system.execute middle rest = some (later, final)) :
    system.execute state (action :: rest) = some (event :: later, final) :=
  execute_cons_iff.mpr ⟨event, middle, later, stepped, continued, rfl⟩

theorem execute_one {system : StepSystem State Action Event} {state after : State}
    {action : Action} {event : Event} (stepped : system.step state action = some (event, after)) :
    system.execute state [action] = some ([event], after) :=
  execute_cons stepped rfl

theorem execute_append {system : StepSystem State Action Event} {state middle final : State}
    {actions more : List Action} {events later : List Event}
    (first : system.execute state actions = some (events, middle))
    (second : system.execute middle more = some (later, final)) :
    system.execute state (actions ++ more) = some (events ++ later, final) := by
  induction actions generalizing state events with
  | nil =>
      obtain ⟨rfl, rfl⟩ := execute_nil.mp first
      exact second
  | cons action rest ih =>
      obtain ⟨event, next, seen, stepped, continued, rfl⟩ := execute_cons_iff.mp first
      exact execute_cons stepped (ih continued)

/-- A run comes from a list of actions. -/
theorem Run.executed {system : StepSystem State Action Event} {start state : State}
    {history : List Event} (run : system.Run start history state) :
    ∃ actions, system.execute start actions = some (history, state) := by
  induction run with
  | start => exact ⟨[], rfl⟩
  | @next history before after action event _ step ih =>
      obtain ⟨actions, executed⟩ := ih
      exact ⟨actions ++ [action], execute_append executed (execute_one step)⟩

/-- A property of history and state that each step preserves holds after every run. -/
theorem Run.invariant {system : StepSystem State Action Event} {start : State}
    (property : List Event → State → Prop) (initial : property [] start)
    (preserved : ∀ history before action event after, property history before →
      system.step before action = some (event, after) → property (history ++ [event]) after)
    {history : List Event} {state : State} (run : system.Run start history state) :
    property history state := by
  induction run with
  | start => exact initial
  | next _ step ih => exact preserved _ _ _ _ _ ih step

/-- A property of history and state that each allowed action preserves holds after every list of allowed
actions. -/
theorem execute_invariant {system : StepSystem State Action Event} {allowed : Action → Prop}
    (property : List Event → State → Prop)
    (preserved : ∀ history before action event after, allowed action → property history before →
      system.step before action = some (event, after) → property (history ++ [event]) after)
    {start final : State} {actions : List Action} {history events : List Event}
    (each : ∀ action ∈ actions, allowed action) (initial : property history start)
    (executed : system.execute start actions = some (events, final)) :
    property (history ++ events) final := by
  induction actions generalizing start history events with
  | nil =>
      obtain ⟨rfl, rfl⟩ := execute_nil.mp executed
      rw [List.append_nil]
      exact initial
  | cons action rest ih =>
      obtain ⟨event, middle, later, stepped, continued, rfl⟩ := execute_cons_iff.mp executed
      obtain ⟨here, others⟩ := List.forall_mem_cons.mp each
      have next := ih others (preserved _ _ _ _ _ here initial stepped) continued
      rwa [List.append_assoc] at next

/-- Each event of a run comes from a step that follows the run of the events before it. -/
theorem Run.split {system : StepSystem State Action Event} {start final : State}
    {history earlier later : List Event} {event : Event} (run : system.Run start history final)
    (parts : history = earlier ++ event :: later) :
    ∃ before action after, system.Run start earlier before ∧
      system.step before action = some (event, after) := by
  induction run generalizing later with
  | start => simp at parts
  | next run step ih =>
      rcases List.eq_nil_or_concat later with rfl | ⟨front, last, rfl⟩
      · obtain ⟨same, last⟩ := List.append_inj' parts rfl
        cases last
        subst same
        exact ⟨_, _, _, run, step⟩
      · apply ih
        have shifted : earlier ++ event :: (front ++ [last]) = (earlier ++ event :: front) ++ [last] := by
          simp
        rw [List.concat_eq_append, shifted] at parts
        exact (List.append_inj' parts rfl).1

/-- The restricted system refuses every action outside the allowed ones. -/
def restrict (system : StepSystem State Action Event) (allowed : State → Action → Prop)
    [∀ state action, Decidable (allowed state action)] : StepSystem State Action Event where
  step state action := if allowed state action then system.step state action else none

/-- A restricted step is an allowed step of the original system. -/
theorem restrict_step {system : StepSystem State Action Event}
    {allowed : State → Action → Prop} [∀ state action, Decidable (allowed state action)]
    {before after : State} {action : Action} {event : Event} :
    (system.restrict allowed).step before action = some (event, after) ↔
      allowed before action ∧ system.step before action = some (event, after) := by
  simp [restrict]

/-- Each action of a list is allowed in the state in which it is taken. -/
def Obeys (system : StepSystem State Action Event) (allowed : State → Action → Prop) :
    State → List Action → Prop
  | _, [] => True
  | state, action :: rest =>
      allowed state action ∧
        ∀ event after, system.step state action = some (event, after) → Obeys system allowed after rest

theorem obeys_cons {system : StepSystem State Action Event} {allowed : State → Action → Prop}
    {start middle : State} {action : Action} {event : Event} {rest : List Action}
    (stepped : system.step start action = some (event, middle)) :
    system.Obeys allowed start (action :: rest) ↔
      allowed start action ∧ system.Obeys allowed middle rest := by
  simp [Obeys, stepped]

/-- Where an invariant makes exactly the allowed actions have good events, and the allowed actions keep
it, exactly the executions of allowed actions have good events only, and they keep it. -/
theorem execute_good_iff {system : StepSystem State Action Event} {good : Event → Prop}
    {allowed : State → Action → Prop} {invariant : State → Prop}
    (each : ∀ {before action event after}, invariant before →
      system.step before action = some (event, after) →
        (good event ↔ allowed before action) ∧ (allowed before action → invariant after))
    {start final : State} {actions : List Action} {events : List Event} (initial : invariant start)
    (executed : system.execute start actions = some (events, final)) :
    ((∀ event ∈ events, good event) ↔ system.Obeys allowed start actions) ∧
      (system.Obeys allowed start actions → invariant final) := by
  induction actions generalizing start events with
  | nil =>
      obtain ⟨rfl, rfl⟩ := execute_nil.mp executed
      exact ⟨iff_of_true (by simp) trivial, fun _ => initial⟩
  | cons action rest ih =>
      obtain ⟨event, middle, later, stepped, continued, rfl⟩ := execute_cons_iff.mp executed
      obtain ⟨good_iff, kept⟩ := each initial stepped
      rw [List.forall_mem_cons, obeys_cons stepped, good_iff]
      constructor
      · exact and_congr_right fun here => (ih (kept here) continued).1
      · exact fun both => (ih (kept both.1) continued).2 both.2

/-- A monitor follows the events. Where it goes with the states on exactly the allowed actions, and stops
on the others, it survives exactly the executions of allowed actions. -/
theorem execute_monitored {Monitor : Type*} {system : StepSystem State Action Event}
    (advance : Monitor → Event → Option Monitor) (view : State → Monitor)
    {allowed : State → Action → Prop}
    (follows : ∀ {before action event after}, system.step before action = some (event, after) →
      allowed before action → advance (view before) event = some (view after))
    (stops : ∀ {before action event after}, system.step before action = some (event, after) →
      ¬ allowed before action → advance (view before) event = none)
    {start final : State} {actions : List Action} {events : List Event}
    (executed : system.execute start actions = some (events, final)) :
    (system.Obeys allowed start actions → events.foldlM advance (view start) = some (view final)) ∧
      (¬ system.Obeys allowed start actions → events.foldlM advance (view start) = none) := by
  induction actions generalizing start events with
  | nil =>
      obtain ⟨rfl, rfl⟩ := execute_nil.mp executed
      exact ⟨fun _ => rfl, fun fails => absurd trivial fails⟩
  | cons action rest ih =>
      obtain ⟨event, middle, later, stepped, continued, rfl⟩ := execute_cons_iff.mp executed
      obtain ⟨survives, ends⟩ := ih continued
      rw [obeys_cons stepped, List.foldlM_cons]
      by_cases here : allowed start action
      · rw [follows stepped here]
        exact ⟨fun both => survives both.2, fun fails => ends fun others => fails ⟨here, others⟩⟩
      · rw [stops stepped here]
        exact ⟨fun both => absurd both.1 here, fun _ => rfl⟩

/-- A condition on the actions alone is one on each of the executed actions. -/
theorem obeys_iff {system : StepSystem State Action Event} {allowed : Action → Prop}
    {start final : State} {actions : List Action} {events : List Event}
    (executed : system.execute start actions = some (events, final)) :
    system.Obeys (fun _ => allowed) start actions ↔ ∀ action ∈ actions, allowed action := by
  induction actions generalizing start events with
  | nil => exact iff_of_true trivial (by simp)
  | cons action rest ih =>
      obtain ⟨event, middle, later, stepped, continued, rfl⟩ := execute_cons_iff.mp executed
      rw [obeys_cons stepped, List.forall_mem_cons, ih continued]

/-- The confined system refuses every step that leaves the states inside. -/
def confine (system : StepSystem State Action Event) (inside : State → Prop)
    [DecidablePred inside] : StepSystem State Action Event where
  step state action := (system.step state action).filter fun answer => inside answer.2

/-- A confined step is a step of the original system to a state inside. -/
theorem confine_step {system : StepSystem State Action Event} {inside : State → Prop}
    [DecidablePred inside] {before after : State} {action : Action} {event : Event} :
    (system.confine inside).step before action = some (event, after) ↔
      system.step before action = some (event, after) ∧ inside after := by
  simp [confine, Option.filter_eq_some_iff]

/-- A confined run is a run of the original system. -/
theorem Run.unconfine {system : StepSystem State Action Event} {inside : State → Prop}
    [DecidablePred inside] {start final : State} {history : List Event}
    (run : (system.confine inside).Run start history final) : system.Run start history final := by
  induction run with
  | start => exact .start
  | next _ step ih => exact ih.next (confine_step.mp step).1

theorem execute_unconfine {system : StepSystem State Action Event} {inside : State → Prop}
    [DecidablePred inside] {start final : State} {actions : List Action} {events : List Event}
    (executed : (system.confine inside).execute start actions = some (events, final)) :
    system.execute start actions = some (events, final) := by
  induction actions generalizing start events with
  | nil => exact executed
  | cons action rest ih =>
      obtain ⟨event, middle, later, stepped, continued, rfl⟩ := execute_cons_iff.mp executed
      exact execute_cons (confine_step.mp stepped).1 (ih continued)

/-- The renamed system knows the actions by other names. -/
def rename {Action' : Type*} (system : StepSystem State Action Event) (action : Action' → Action) :
    StepSystem State Action' Event where
  step state name := system.step state (action name)

theorem Run.of_rename {Action' : Type*} {system : StepSystem State Action Event}
    {action : Action' → Action} {start final : State} {history : List Event}
    (run : (system.rename action).Run start history final) : system.Run start history final := by
  induction run with
  | start => exact .start
  | next _ step ih => exact ih.next step

/-- A system that answers each action of another system alike executes the same lists of actions. -/
theorem execute_matched {State' : Type*} {other : StepSystem State' Action Event}
    {system : StepSystem State Action Event} {relation : State → State' → Prop}
    (matched : ∀ {state state' action event after'}, relation state state' →
      other.step state' action = some (event, after') →
      ∃ after, system.step state action = some (event, after) ∧ relation after after')
    {state : State} {state' final' : State'} {actions : List Action} {events : List Event}
    (related : relation state state') (executed : other.execute state' actions = some (events, final')) :
    ∃ final, system.execute state actions = some (events, final) ∧ relation final final' := by
  induction actions generalizing state state' events with
  | nil =>
      obtain ⟨rfl, rfl⟩ := execute_nil.mp executed
      exact ⟨state, rfl, related⟩
  | cons action rest ih =>
      obtain ⟨event, middle', later, stepped', continued, rfl⟩ := execute_cons_iff.mp executed
      obtain ⟨middle, stepped, related⟩ := matched related stepped'
      obtain ⟨final, ran, related⟩ := ih related continued
      exact ⟨final, execute_cons stepped ran, related⟩

/-- Actions that lower a cost can only follow each other as often as it allows. -/
theorem execute_cost {system : StepSystem State Action Event} {cost : State → Nat} {goesOn : Action → Prop}
    (lowers : ∀ {before event after action}, goesOn action →
      system.step before action = some (event, after) → cost after < cost before)
    {start final : State} {actions : List Action} {events : List Event}
    (going : ∀ action ∈ actions, goesOn action)
    (executed : system.execute start actions = some (events, final)) :
    actions.length + cost final ≤ cost start := by
  induction actions generalizing start events with
  | nil =>
      obtain ⟨-, rfl⟩ := execute_nil.mp executed
      exact Nat.le_of_eq (Nat.zero_add _)
  | cons action rest ih =>
      obtain ⟨event, middle, later, stepped, continued, -⟩ := execute_cons_iff.mp executed
      obtain ⟨first, others⟩ := List.forall_mem_cons.mp going
      have less := lowers first stepped
      have bound := ih others continued
      rw [List.length_cons]
      omega

/-- Two answers have the same event and related states. -/
def Alike {State' : Type*} (relation : State → State' → Prop) (answer : Event × State)
    (answer' : Event × State') : Prop :=
  answer.1 = answer'.1 ∧ relation answer.2 answer'.2

/-- Systems that answer, or refuse, each action alike do so with each list of actions. -/
theorem execute_related {State' : Type*} {system : StepSystem State Action Event}
    {other : StepSystem State' Action Event} {relation : State → State' → Prop}
    (matched : ∀ {state state'}, relation state state' → ∀ action,
      Option.Rel (Alike relation) (system.step state action) (other.step state' action))
    {state : State} {state' : State'} (related : relation state state') (actions : List Action) :
    Option.Rel (Alike relation) (system.execute state actions) (other.execute state' actions) := by
  induction actions generalizing state state' with
  | nil => exact .some ⟨rfl, related⟩
  | cons action rest ih =>
      have stepped := matched related action
      simp only [execute]
      generalize system.step state action = answer at stepped
      generalize other.step state' action = answer' at stepped
      cases stepped with
      | none => exact .none
      | @some first first' alike =>
          have continued := ih alike.2
          dsimp only
          generalize system.execute first.2 rest = ran at continued
          generalize other.execute first'.2 rest = ran' at continued
          cases continued with
          | none => exact .none
          | some later => exact .some ⟨congrArg₂ List.cons alike.1 later.1, later.2⟩

/-- A concrete system refines an abstract one when each step is matched by the step that its
visible event names, and by no step where the event is invisible. -/
structure Refinement {State' Action' Event' : Type*} (concrete : StepSystem State Action Event)
    (abstract : StepSystem State' Action' Event') where
  relation : State → State' → Prop
  visible : Event → Option Event'
  simulate : ∀ {before event after action high}, relation before high →
    concrete.step before action = some (event, after) →
    match visible event with
    | none => relation after high
    | some shown => ∃ action' high', abstract.step high action' = some (shown, high') ∧
        relation after high'

/-- The visible history of a concrete run is the history of a related abstract run. -/
theorem Refinement.run {State' Action' Event' : Type*}
    {concrete : StepSystem State Action Event} {abstract : StepSystem State' Action' Event'}
    (refinement : Refinement concrete abstract) {low : State} {high : State'}
    (initial : refinement.relation low high) {history : List Event} {state : State}
    (run : concrete.Run low history state) :
    ∃ state', abstract.Run high (history.filterMap refinement.visible) state' ∧
      refinement.relation state state' := by
  induction run with
  | start => exact ⟨high, .start, initial⟩
  | @next history before after action event _ step ih =>
      obtain ⟨middle, reached, related⟩ := ih
      have matched := refinement.simulate related step
      rw [List.filterMap_append]
      cases seen : refinement.visible event with
      | none =>
          simp only [seen] at matched
          exact ⟨middle, by simpa [seen] using reached, matched⟩
      | some shown =>
          simp only [seen] at matched
          obtain ⟨action', final, stepped, related'⟩ := matched
          exact ⟨final, by simpa [seen] using reached.next stepped, related'⟩

end StepSystem

end MartCommon.Library
