import MartCommon.Library.Ownership
import MartCommon.Library.StepSystem
import MartCommon.Mba.DynamicArray

namespace MartCommon.Mba.DynamicArray

open Library

variable {T : Type*}

inductive Action (T : Type*) where
  | default (object : Nat)
  | list (object : Nat) (list : List T)
  | size (object count : Nat)
  | copyConstruct (object source : Nat)
  | moveConstruct (object source : Nat)
  | copyAssign (target source : Nat)
  | moveAssign (target source : Nat)
  | assignAt (object i : Nat) (value : T)
  | destroy (object : Nat)

structure State (T : Type*) where
  arrays : Nat → Option DynamicArray := fun _ => none
  memory : Blocks T := .empty

namespace State

/-- An array with its new contents. -/
def put (state : State T) (object : Nat) (effect : Effect T) : State T :=
  ⟨Function.update state.arrays object (some effect.this), effect.memory⟩

def create (state : State T) (object : Nat) (made : Option (Effect T)) : Option (State T) :=
  if (state.arrays object).isSome then none else made.map (state.put object)

/-- The pointer and the size move to the target. The source has a null pointer and no elements. -/
def move (state : State T) (target source : Nat) (memory : Blocks T) (other : DynamicArray) : State T :=
  (state.put source ⟨{}, state.memory⟩).put target ⟨other, memory⟩

/-- The elements from `begin()` to `end()` -/
def elements (state : State T) (object : Nat) : Option (List T) :=
  (state.arrays object).bind fun array => state.memory.read array.data array.size

/-- The number of elements that are allocated behind `_data` -/
def allocated (state : State T) (array : DynamicArray) : Nat := allocatedCells state.memory array.data

end State

/-- The step of a program with arrays of one type. There is none where an element outside of a block
would be accessed. -/
def next [Inhabited T] (state : State T) : Action T → Option (State T)
  | .default object => state.create object (some ⟨{}, state.memory⟩)
  | .list object list => state.create object (ofList state.memory list)
  | .size object count => state.create object (some (ofSize state.memory count))
  | .copyConstruct object source =>
      (state.arrays source).bind fun other =>
        state.create object (DynamicArray.copyConstruct state.memory other)
  | .moveConstruct object source =>
      (state.arrays source).bind fun other =>
        if (state.arrays object).isSome then none else some (state.move object source state.memory other)
  | .copyAssign target source =>
      (state.arrays target).bind fun this =>
        (state.arrays source).bind fun other =>
          (DynamicArray.copyAssign state.memory this other).map (state.put target)
  | .moveAssign target source =>
      if target = source then none
      else
        (state.arrays target).bind fun this =>
          (state.arrays source).map fun other =>
            state.move target source (reset state.memory this.data) other
  | .assignAt object i value =>
      (state.arrays object).bind fun this =>
        (DynamicArray.assignAt state.memory this i value).map (state.put object)
  | .destroy object =>
      (state.arrays object).map fun this =>
        ⟨Function.update state.arrays object none, reset state.memory this.data⟩

def system (T : Type*) [Inhabited T] : StepSystem (State T) (Action T) Unit where
  step state action := (next state action).map fun after => ((), after)

/-- The values that the arrays stand for. -/
abbrev Values (T : Type*) := Nat → Option (List T)

def Values.create (values : Values T) (object : Nat) (value : List T) : Option (Values T) :=
  if (values object).isSome then none else some (Function.update values object (some value))

/-- What a program with values in the place of arrays does. -/
def nextValues [Inhabited T] (values : Values T) : Action T → Option (Values T)
  | .default object => values.create object []
  | .list object list => values.create object list
  | .size object count => values.create object (List.replicate count default)
  | .copyConstruct object source => (values source).bind (values.create object)
  | .moveConstruct object source =>
      (values source).bind fun value =>
        if (values object).isSome then none
        else some (Function.update (Function.update values source (some [])) object (some value))
  | .copyAssign target source =>
      (values target).bind fun _ =>
        (values source).map fun value => Function.update values target (some value)
  | .moveAssign target source =>
      if target = source then none
      else
        (values target).bind fun _ =>
          (values source).map fun value =>
            Function.update (Function.update values source (some [])) target (some value)
  | .assignAt object i value =>
      (values object).bind fun old =>
        if i < old.length then some (Function.update values object (some (old.set i value))) else none
  | .destroy object => (values object).map fun _ => Function.update values object none

def valueSystem (T : Type*) [Inhabited T] : StepSystem (Values T) (Action T) Unit where
  step values action := (nextValues values action).map fun after => ((), after)

/-- The objects that an action may change -/
def Action.changed : Action T → List Nat
  | .default object => [object]
  | .list object _ => [object]
  | .size object _ => [object]
  | .copyConstruct object _ => [object]
  | .moveConstruct object source => [object, source]
  | .copyAssign target _ => [target]
  | .moveAssign target source => [target, source]
  | .assignAt object _ _ => [object]
  | .destroy object => [object]

/-- The block that an array owns -/
def State.block (state : State T) (object : Nat) : Option Nat := (state.arrays object).bind DynamicArray.data

/-- The arrays hold the values, each in a block of its own. -/
structure Represents (state : State T) (values : Values T) : Prop where
  related : ∀ object, Option.Rel (Holds state.memory) (state.arrays object) (values object)
  apart : ∀ object other block, state.block object = some block → state.block other = some block →
    object = other

section Represents

variable {state : State T} {values : Values T} {object : Nat} {array : DynamicArray}

theorem State.block_update (state : State T) (object : Nat) (made : Option DynamicArray)
    (after : Blocks T) :
    State.block ⟨Function.update state.arrays object made, after⟩ =
      Function.update state.block object (made.bind data) :=
  Function.comp_update (fun array : Option DynamicArray => array.bind data) state.arrays object made

theorem State.block_of_some (found : state.arrays object = some array) : state.block object = array.data :=
  congrArg (Option.bind · data) found

theorem Represents.initial : Represents ({} : State T) fun _ => none :=
  ⟨fun _ => .none, nofun⟩

theorem Represents.cases (represents : Represents state values) (object : Nat) :
    (state.arrays object = none ∧ values object = none) ∨
      ∃ array elements, state.arrays object = some array ∧ values object = some elements ∧
        Holds state.memory array elements := by
  have related := represents.related object
  cases found : state.arrays object with
  | none =>
      rw [found] at related
      generalize values object = value at related
      cases related
      exact .inl ⟨rfl, rfl⟩
  | some array =>
      rw [found] at related
      generalize values object = value at related
      cases related with
      | some holds => exact .inr ⟨array, _, rfl, rfl, holds⟩

theorem Represents.isSome_iff (represents : Represents state values) (object : Nat) :
    (state.arrays object).isSome = (values object).isSome := by
  rcases represents.cases object with ⟨gone, absent⟩ | ⟨array, elements, found, value, -⟩
  · rw [gone, absent]
    rfl
  · rw [found, value]
    rfl

/-- The elements of the arrays are the values. -/
theorem Represents.elements (represents : Represents state values) : state.elements = values := by
  funext object
  rcases represents.cases object with ⟨gone, absent⟩ | ⟨array, elements, found, value, holds⟩
  · rw [State.elements, gone, absent]
    rfl
  · rw [State.elements, found, value]
    exact holds.read

theorem Represents.sizes (represents : Represents state values) (object : Nat) :
    (state.arrays object).map DynamicArray.size = (state.elements object).map List.length := by
  rw [represents.elements]
  rcases represents.cases object with ⟨gone, absent⟩ | ⟨array, elements, found, value, holds⟩
  · rw [gone, absent]
    rfl
  · rw [found, value]
    exact congrArg some holds.1

theorem Represents.fits (represents : Represents state values) (found : state.arrays object = some array) :
    array.size ≤ state.allocated array := by
  rcases represents.cases object with ⟨gone, -⟩ | ⟨same, elements, there, -, holds⟩
  · rw [gone] at found
    contradiction
  · obtain rfl := Option.some.inj (there.symm.trans found)
    exact holds.fits

theorem Represents.not_next (represents : Represents state values) (object : Nat) :
    state.block object ≠ some state.memory.next := by
  rw [State.block]
  rcases represents.cases object with ⟨gone, -⟩ | ⟨array, elements, found, -, holds⟩
  · rw [gone]
    exact nofun
  · rw [found]
    exact holds.not_next

/-- One object changes, together with its block. -/
theorem Represents.update (represents : Represents state values) {after : Blocks T}
    {made : Option DynamicArray} {value : Option (List T)} (related : Option.Rel (Holds after) made value)
    (alone : ∀ other block, other ≠ object → made.bind DynamicArray.data = some block →
      state.block other ≠ some block)
    (kept : ∀ block cells, state.memory.cells block = some cells → state.block object ≠ some block →
      after.cells block = some cells) :
    Represents ⟨Function.update state.arrays object made, after⟩
      (Function.update values object value) where
  related other := by
    by_cases same : other = object
    · subst same
      change Option.Rel _ (Function.update state.arrays other made other) _
      rw [Function.update_self, Function.update_self]
      exact related
    · change Option.Rel _ (Function.update state.arrays object made other) _
      rw [Function.update_of_ne same, Function.update_of_ne same]
      rcases represents.cases other with ⟨gone, absent⟩ | ⟨array, elements, found, there, holds⟩
      · rw [gone, absent]
        exact .none
      · rw [found, there]
        apply Option.Rel.some
        apply holds.kept
        intro block cells data cell
        apply kept block cells cell
        intro own
        have owns : state.block other = some block := (State.block_of_some found).trans data
        exact same (represents.apart other object block owns own)
  apart := by
    rw [State.block_update]
    exact Ownership.unique_update represents.apart alone

/-- An array gets new elements. -/
theorem Represents.put (represents : Represents state values) {effect : Effect T} {elements : List T}
    (replaces : Replaces state.memory (state.block object) effect elements) :
    Represents (state.put object effect) (Function.update values object (some elements)) := by
  apply represents.update (.some replaces.holds) _ replaces.kept
  intro other block different data owns
  rcases replaces.origin block data with own | next
  · exact different (represents.apart other object block owns own)
  · rw [next] at owns
    exact represents.not_next other owns

/-- The block of the source moves to the target, whose own block may be deallocated. -/
theorem Represents.move (represents : Represents state values) {target source : Nat} {after : Blocks T}
    {other : DynamicArray} {elements : List T} (different : target ≠ source)
    (found : state.arrays source = some other) (value : values source = some elements)
    (kept : ∀ block, state.block target ≠ some block → after.cells block = state.memory.cells block) :
    Represents (state.move target source after other)
      (Function.update (Function.update values source (some [])) target (some elements)) := by
  have owns : state.block source = other.data := State.block_of_some found
  have holds : Holds state.memory other elements := by
    have related := represents.related source
    rw [found, value] at related
    cases related with
    | some holds => exact holds
  have emptied : Represents (state.put source ⟨{}, state.memory⟩)
      (Function.update values source (some [])) := by
    apply represents.update (.some holds_empty)
    · exact nofun
    · exact fun _ _ there _ => there
  apply emptied.update
  · apply Option.Rel.some
    apply holds.kept
    intro block cells data there
    rw [kept block, there]
    intro own
    exact different (represents.apart target source block own (owns.trans data))
  · intro object block _ data own
    rw [State.put, State.block_update] at own
    by_cases same : object = source
    · rw [same, Function.update_self] at own
      contradiction
    · rw [Function.update_of_ne same] at own
      exact same (represents.apart object source block own (owns.trans data))
  · intro block cells there free
    rw [State.put, State.block_update, Function.update_of_ne different] at free
    rw [kept block free]
    exact there

/-- An array is destroyed. -/
theorem Represents.remove (represents : Represents state values) (found : state.arrays object = some array) :
    Represents ⟨Function.update state.arrays object none, reset state.memory array.data⟩
      (Function.update values object none) := by
  apply represents.update .none
  · exact nofun
  · intro block cells there free
    rw [State.block_of_some found] at free
    rw [cells_reset free, there]

/-- A new array has elements of its own. -/
theorem Represents.create (represents : Represents state values) {effect : Effect T} {elements : List T}
    (replaces : Replaces state.memory none effect elements) :
    Option.Rel Represents (state.create object (some effect)) (values.create object elements) := by
  rw [State.create, Values.create, represents.isSome_iff]
  rcases represents.cases object with ⟨gone, absent⟩ | ⟨array, old, found, value, -⟩
  · rw [absent]
    apply Option.Rel.some
    apply represents.put
    rw [State.block, gone]
    exact replaces
  · rw [value]
    exact .none

end Represents

section Steps

variable [Inhabited T] {state : State T} {values : Values T}

omit [Inhabited T] in
/-- A function of an array is taken together with one of its value. -/
theorem Represents.bind (represents : Represents state values) {object : Nat}
    {act : DynamicArray → Option (State T)} {actValue : List T → Option (Values T)}
    (each : ∀ array elements, state.arrays object = some array → values object = some elements →
      Holds state.memory array elements → Option.Rel Represents (act array) (actValue elements)) :
    Option.Rel Represents ((state.arrays object).bind act) ((values object).bind actValue) := by
  rcases represents.cases object with ⟨gone, absent⟩ | ⟨array, elements, found, value, holds⟩
  · rw [gone, absent]
    exact .none
  · rw [found, value]
    exact each array elements found value holds

omit [Inhabited T] in
/-- An array of the state is replaced together with its value. -/
theorem Represents.assign (represents : Represents state values) {object : Nat} {this : DynamicArray}
    (found : state.arrays object = some this) {effect : Effect T} {elements : List T}
    (replaces : Replaces state.memory this.data effect elements) :
    Option.Rel Represents (some (state.put object effect))
      (some (Function.update values object (some elements))) := by
  apply Option.Rel.some
  apply represents.put
  rw [State.block_of_some found]
  exact replaces

theorem Represents.copyConstruct (represents : Represents state values) (object source : Nat) :
    Option.Rel Represents (next state (.copyConstruct object source))
      (nextValues values (.copyConstruct object source)) := by
  apply represents.bind
  intro other elements _ _ holds
  obtain ⟨effect, made, replaces⟩ := copyConstruct_replaces holds
  rw [made]
  exact represents.create replaces

theorem Represents.moveConstruct (represents : Represents state values) (object source : Nat) :
    Option.Rel Represents (next state (.moveConstruct object source))
      (nextValues values (.moveConstruct object source)) := by
  apply represents.bind
  intro other elements found value _
  rw [represents.isSome_iff]
  rcases represents.cases object with ⟨gone, absent⟩ | ⟨this, old, -, there, -⟩
  · rw [absent]
    apply Option.Rel.some
    apply represents.move _ found value fun _ _ => rfl
    intro same
    rw [← same, gone] at found
    contradiction
  · rw [there]
    exact .none

theorem Represents.copyAssign (represents : Represents state values) (target source : Nat) :
    Option.Rel Represents (next state (.copyAssign target source))
      (nextValues values (.copyAssign target source)) := by
  apply represents.bind
  intro this old targetFound _ targetHolds
  rw [Option.map_eq_bind]
  apply represents.bind
  intro other elements found _ holds
  -- Arrays with one block are one array.
  have apart : ∀ block, this.data = some block → other.data = some block → this = other := by
    intro block one two
    have owns := (State.block_of_some targetFound).trans one
    have same := represents.apart target source block owns ((State.block_of_some found).trans two)
    rw [same, found] at targetFound
    exact (Option.some.inj targetFound).symm
  obtain ⟨effect, made, replaces⟩ := copyAssign_replaces targetHolds holds apart
  rw [made]
  exact represents.assign targetFound replaces

theorem Represents.moveAssign (represents : Represents state values) (target source : Nat) :
    Option.Rel Represents (next state (.moveAssign target source))
      (nextValues values (.moveAssign target source)) := by
  rw [next, nextValues]
  by_cases same : target = source
  · rw [if_pos same, if_pos same]
    exact .none
  · rw [if_neg same, if_neg same]
    apply represents.bind
    intro this old targetFound _ _
    rw [Option.map_eq_bind, Option.map_eq_bind]
    apply represents.bind
    intro other elements found value _
    apply Option.Rel.some
    apply represents.move same found value
    intro block free
    rw [State.block_of_some targetFound] at free
    exact cells_reset free

theorem Represents.assignAt (represents : Represents state values) (object i : Nat) (value : T) :
    Option.Rel Represents (next state (.assignAt object i value))
      (nextValues values (.assignAt object i value)) := by
  apply represents.bind
  intro this elements found _ holds
  by_cases inside : i < elements.length
  · obtain ⟨effect, made, replaces⟩ := assignAt_replaces holds value inside
    rw [if_pos inside, made]
    exact represents.assign found replaces
  · rw [if_neg inside, holds.assignAt_outside value inside]
    exact .none

theorem Represents.destroy (represents : Represents state values) (object : Nat) :
    Option.Rel Represents (next state (.destroy object)) (nextValues values (.destroy object)) := by
  rw [next, nextValues, Option.map_eq_bind, Option.map_eq_bind]
  apply represents.bind
  intro this elements found _ _
  apply Option.Rel.some
  exact represents.remove found

/-- Each step does to the arrays what it does to the values. -/
theorem next_matches (represents : Represents state values) (action : Action T) :
    Option.Rel Represents (next state action) (nextValues values action) := by
  cases action with
  | default object => exact represents.create ⟨holds_empty, nofun, fun _ _ there _ => there⟩
  | list object list =>
      obtain ⟨effect, made, replaces⟩ := ofList_replaces state.memory list
      rw [next, made]
      exact represents.create replaces
  | size object count => exact represents.create (ofSize_replaces state.memory count)
  | copyConstruct object source => exact represents.copyConstruct object source
  | moveConstruct object source => exact represents.moveConstruct object source
  | copyAssign target source => exact represents.copyAssign target source
  | moveAssign target source => exact represents.moveAssign target source
  | assignAt object i value => exact represents.assignAt object i value
  | destroy object => exact represents.destroy object

end Steps

/-- What is true of the arrays in each state that a program reaches. -/
structure Semantics [Inhabited T] (state : State T) : Prop where
  fits : ∀ object array, state.arrays object = some array → array.size ≤ state.allocated array
  sizes : ∀ object,
    (state.arrays object).map DynamicArray.size = (state.elements object).map List.length
  copied : ∀ target source after,
    next state (.copyConstruct target source) = some after ∨
        next state (.copyAssign target source) = some after →
      after.elements target = state.elements source ∧ after.elements source = state.elements source
  moved : ∀ target source after,
    next state (.moveConstruct target source) = some after ∨
        next state (.moveAssign target source) = some after →
      after.elements target = state.elements source ∧
        (after.arrays source).map DynamicArray.size = some 0
  assignable : ∀ target source, (state.arrays target).isSome → (state.arrays source).isSome →
    (next state (.copyAssign target source)).isSome ∧
      (target ≠ source → (next state (.moveAssign target source)).isSome)
  written : ∀ object i value after, next state (.assignAt object i value) = some after →
    after.elements object = (state.elements object).map fun elements => elements.set i value
  unchanged : ∀ actions events after, (system T).execute state actions = some (events, after) →
    ∀ object, (∀ action ∈ actions, object ∉ action.changed) →
      after.elements object = state.elements object

section Runs

variable [Inhabited T] {state after : State T} {values later : Values T} {action : Action T}

/-- A step from a state of values leads to a state of values. -/
theorem Represents.next (represents : Represents state values)
    (stepped : DynamicArray.next state action = some after) :
    ∃ later, nextValues values action = some later ∧ Represents after later := by
  have related := next_matches represents action
  rw [stepped] at related
  generalize nextValues values action = result at related
  cases related with
  | some represents => exact ⟨_, rfl, represents⟩

theorem Represents.next_isSome (represents : Represents state values) (action : Action T) :
    (DynamicArray.next state action).isSome = (nextValues values action).isSome := by
  have related := next_matches represents action
  generalize nextValues values action = result at related
  generalize DynamicArray.next state action = made at related
  cases related <;> rfl

omit [Inhabited T] in
theorem Values.create_unchanged {made object : Nat} {value : List T}
    (created : values.create made value = some later) (other : object ≠ made) :
    later object = values object := by
  simp only [Values.create, Option.ite_none_left_eq_some, Option.some.injEq] at created
  rw [← created.2, Function.update_of_ne other]

/-- A step with values changes the values of its objects only. -/
theorem nextValues_unchanged (stepped : nextValues values action = some later) {object : Nat}
    (other : object ∉ action.changed) : later object = values object := by
  cases action with
  | default made => exact Values.create_unchanged stepped (List.ne_of_not_mem_cons other)
  | list made list => exact Values.create_unchanged stepped (List.ne_of_not_mem_cons other)
  | size made count => exact Values.create_unchanged stepped (List.ne_of_not_mem_cons other)
  | copyConstruct made source =>
      obtain ⟨value, -, created⟩ := Option.bind_eq_some_iff.mp stepped
      exact Values.create_unchanged created (List.ne_of_not_mem_cons other)
  | moveConstruct made source =>
      simp only [nextValues, Option.bind_eq_some_iff, Option.ite_none_left_eq_some, Option.some.injEq]
        at stepped
      obtain ⟨value, -, -, rfl⟩ := stepped
      simp only [Action.changed, List.mem_cons, List.not_mem_nil, or_false, not_or] at other
      rw [Function.update_of_ne other.1, Function.update_of_ne other.2]
  | copyAssign target source =>
      simp only [nextValues, Option.bind_eq_some_iff, Option.map_eq_some_iff] at stepped
      obtain ⟨old, -, value, -, rfl⟩ := stepped
      rw [Function.update_of_ne (List.ne_of_not_mem_cons other)]
  | moveAssign target source =>
      simp only [nextValues, Option.ite_none_left_eq_some, Option.bind_eq_some_iff,
        Option.map_eq_some_iff] at stepped
      obtain ⟨-, old, -, value, -, rfl⟩ := stepped
      simp only [Action.changed, List.mem_cons, List.not_mem_nil, or_false, not_or] at other
      rw [Function.update_of_ne other.1, Function.update_of_ne other.2]
  | assignAt target i value =>
      simp only [nextValues, Option.bind_eq_some_iff, Option.ite_none_right_eq_some, Option.some.injEq]
        at stepped
      obtain ⟨old, -, -, rfl⟩ := stepped
      rw [Function.update_of_ne (List.ne_of_not_mem_cons other)]
  | destroy gone =>
      simp only [nextValues, Option.map_eq_some_iff] at stepped
      obtain ⟨old, -, rfl⟩ := stepped
      rw [Function.update_of_ne (List.ne_of_not_mem_cons other)]

theorem Represents.unchanged (represents : Represents state values) {actions : List (Action T)}
    {events : List Unit} (executed : (system T).execute state actions = some (events, after))
    {object : Nat} (others : ∀ action ∈ actions, object ∉ action.changed) :
    after.elements object = values object := by
  induction actions generalizing state values events with
  | nil =>
      obtain ⟨-, rfl⟩ := StepSystem.execute_nil.mp executed
      rw [represents.elements]
  | cons action rest ih =>
      obtain ⟨event, middle, _, stepped, continued, -⟩ := StepSystem.execute_cons_iff.mp executed
      rw [List.forall_mem_cons] at others
      obtain ⟨_, taken, same⟩ := Option.map_eq_some_iff.mp stepped
      cases same
      obtain ⟨later, made, represents⟩ := represents.next taken
      rw [ih represents continued others.2, nextValues_unchanged made others.1]

theorem Represents.copied (represents : Represents state values) {target source : Nat}
    (stepped : DynamicArray.next state (.copyConstruct target source) = some after ∨
      DynamicArray.next state (.copyAssign target source) = some after) :
    after.elements target = values source ∧ after.elements source = values source := by
  have copied : ∃ value later, values source = some value ∧
      later = Function.update values target (some value) ∧ Represents after later := by
    rcases stepped with constructed | assigned
    · obtain ⟨later, made, represents⟩ := represents.next constructed
      obtain ⟨value, there, created⟩ := Option.bind_eq_some_iff.mp made
      simp only [Values.create, Option.ite_none_left_eq_some, Option.some.injEq] at created
      exact ⟨value, later, there, created.2.symm, represents⟩
    · obtain ⟨later, made, represents⟩ := represents.next assigned
      simp only [nextValues, Option.bind_eq_some_iff, Option.map_eq_some_iff] at made
      obtain ⟨-, -, value, there, same⟩ := made
      exact ⟨value, later, there, same.symm, represents⟩
  obtain ⟨value, later, there, rfl, represents⟩ := copied
  rw [represents.elements, Function.update_self, there]
  refine ⟨rfl, ?_⟩
  by_cases same : source = target
  · rw [same, Function.update_self]
  · rw [Function.update_of_ne same, there]

theorem Represents.moved (represents : Represents state values) {target source : Nat}
    (stepped : DynamicArray.next state (.moveConstruct target source) = some after ∨
      DynamicArray.next state (.moveAssign target source) = some after) :
    after.elements target = values source ∧ (after.arrays source).map DynamicArray.size = some 0 := by
  have moved : ∃ value later, values source = some value ∧ source ≠ target ∧
      later = Function.update (Function.update values source (some [])) target (some value) ∧
        Represents after later := by
    rcases stepped with constructed | assigned
    · obtain ⟨later, made, represents⟩ := represents.next constructed
      simp only [nextValues, Option.bind_eq_some_iff, Option.ite_none_left_eq_some,
        Option.some.injEq] at made
      obtain ⟨value, there, absent, same⟩ := made
      refine ⟨value, later, there, ?_, same.symm, represents⟩
      rintro rfl
      rw [there] at absent
      exact absurd rfl absent
    · obtain ⟨later, made, represents⟩ := represents.next assigned
      simp only [nextValues, Option.ite_none_left_eq_some, Option.bind_eq_some_iff,
        Option.map_eq_some_iff] at made
      obtain ⟨apart, -, -, value, there, same⟩ := made
      exact ⟨value, later, there, Ne.symm apart, same.symm, represents⟩
  obtain ⟨value, later, there, apart, rfl, represents⟩ := moved
  constructor
  · rw [represents.elements, Function.update_self, there]
  · rw [represents.sizes, represents.elements, Function.update_of_ne apart, Function.update_self]
    rfl

theorem Represents.assignable (represents : Represents state values) {target source : Nat}
    (targetThere : (state.arrays target).isSome) (sourceThere : (state.arrays source).isSome) :
    (DynamicArray.next state (.copyAssign target source)).isSome ∧
      (target ≠ source → (DynamicArray.next state (.moveAssign target source)).isSome) := by
  rw [represents.isSome_iff] at targetThere sourceThere
  obtain ⟨old, oldThere⟩ := Option.isSome_iff_exists.mp targetThere
  obtain ⟨value, there⟩ := Option.isSome_iff_exists.mp sourceThere
  constructor
  · rw [represents.next_isSome, nextValues, oldThere, there]
    rfl
  · intro apart
    rw [represents.next_isSome, nextValues, if_neg apart, oldThere, there]
    rfl

theorem Represents.written (represents : Represents state values) {object i : Nat} {value : T}
    (stepped : DynamicArray.next state (.assignAt object i value) = some after) :
    after.elements object = (values object).map fun elements => elements.set i value := by
  obtain ⟨later, made, represents⟩ := represents.next stepped
  simp only [nextValues, Option.bind_eq_some_iff, Option.ite_none_right_eq_some,
    Option.some.injEq] at made
  obtain ⟨old, there, -, rfl⟩ := made
  rw [represents.elements, Function.update_self, there]
  rfl

theorem Represents.semantics (represents : Represents state values) : Semantics state := by
  obtain rfl := represents.elements
  exact {
    fits := fun _ _ => represents.fits
    sizes := represents.sizes
    copied := fun _ _ _ => represents.copied
    moved := fun _ _ _ => represents.moved
    assignable := fun _ _ => represents.assignable
    written := fun _ _ _ _ => represents.written
    unchanged := fun _ _ _ executed _ others => represents.unchanged executed others }

theorem system_matches (represents : Represents state values) (action : Action T) :
    Option.Rel (StepSystem.Alike Represents) ((system T).step state action)
      ((valueSystem T).step values action) := by
  have related := next_matches represents action
  simp only [system, valueSystem]
  generalize DynamicArray.next state action = made at related
  generalize nextValues values action = result at related
  cases related with
  | none => exact .none
  | some represents => exact .some ⟨rfl, represents⟩

/-- A program with arrays does what the program with values does, step by step. -/
theorem value_semantics (actions : List (Action T)) :
    ((system T).execute {} actions).map (fun run => run.2.elements) =
        ((valueSystem T).execute (fun _ => none) actions).map Prod.snd ∧
      ∀ events state, (system T).execute {} actions = some (events, state) → Semantics state := by
  have related := StepSystem.execute_related system_matches Represents.initial actions
  generalize (system T).execute {} actions = ran at related
  generalize (valueSystem T).execute (fun _ => none) actions = ran' at related
  cases related with
  | none => exact ⟨rfl, nofun⟩
  | some alike =>
      refine ⟨congrArg some alike.2.elements, ?_⟩
      rintro events state ⟨⟩
      exact alike.2.semantics

/-- A copy keeps its elements when the source is written, and the source is then moved away. -/
theorem value_semantics_copied :
    ∃ state : State Nat, Semantics state ∧ state.elements 1 = some [1, 2] ∧
      state.elements 2 = some [7, 2] ∧ state.elements 0 = some [] :=
  ⟨_, (value_semantics [.list 0 [1, 2], .copyConstruct 1 0, .assignAt 0 0 7, .moveConstruct 2 0]).2
    [(), (), (), ()] _ rfl, rfl, rfl, rfl⟩

end Runs

end MartCommon.Mba.DynamicArray
