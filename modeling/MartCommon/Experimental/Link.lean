import MartCommon.Library.StepSystem

namespace MartCommon.Experimental.Link

open Library

/-- The links and the targets in memory, each under its address. A link has its `_target`, and a target
its `_back_ptr_store`. A write through a pointer to nothing leaves its mark. -/
structure State (L T : Type*) where
  links : L → Option (Option T) := fun _ => none
  tables : T → Option (List (Option L)) := fun _ => none
  dangled : Bool := false

variable {L T : Type*} [DecidableEq L] [DecidableEq T]

namespace State

variable (state : State L T)

/-- The member `_target` of a link. -/
def target (l : L) : Option T := (state.links l).join

/-- `link->_target = value` -/
def setTarget (l : L) (value : Option T) : State L T :=
  match state.links l with
  | none => { state with dangled := true }
  | some _ => { state with links := Function.update state.links l (some value) }

/-- `std::find` in the back pointers of a target, with the write to the place that it found. -/
def exchangeEntry (t : T) (old new : Option L) : Bool × State L T :=
  match state.tables t with
  | none => (false, { state with dangled := true })
  | some table =>
      if old ∈ table then
        (true, { state with
          tables := Function.update state.tables t (some (table.replace old new)) })
      else (false, state)

def updateBackRef (t : T) (oldAddr newAddr : L) : Bool × State L T :=
  state.exchangeEntry t (some oldAddr) (some newAddr)

def addBackRef (t : T) (newAddr : L) : Bool × State L T :=
  state.exchangeEntry t none (some newAddr)

def removeBackRef (t : T) (oldAddr : L) : Bool × State L T :=
  state.exchangeEntry t (some oldAddr) none

/-- `Link()` -/
def constructLink (l : L) : State L T :=
  { state with links := Function.update state.links l (some none) }

def destroyLink (l : L) : State L T :=
  { state with links := Function.update state.links l none }

def disconnect (l : L) : Bool × State L T :=
  match state.target l with
  | some t => (true, (state.removeBackRef t l).2.setTarget l none)
  | none => (false, state)

/-- `connect` adds the new back pointer before it removes the old one. -/
def connect (l : L) (t : T) : Bool × State L T :=
  match state.addBackRef t l with
  | (true, added) => (true, (added.disconnect l).2.setTarget l (some t))
  | (false, same) => (false, same)

/-- `LinkBase( const LinkBase& other )`, with whether the new link is connected. -/
def copyConstructLink (l other : L) : Bool × State L T :=
  let constructed := state.constructLink l
  match state.target other with
  | some t =>
      match constructed.addBackRef t l with
      | (true, added) => (true, added.setTarget l (some t))
      | (false, same) => (false, same)
  | none => (false, constructed)

/-- `_target( std::exchange( other._target, nullptr ) )` -/
def takeTarget (l other : L) : State L T :=
  ((state.setTarget other none).constructLink l).setTarget l (state.target other)

/-- `LinkBase( LinkBase&& other )`, with whether the new link is connected. -/
def moveConstructLink (l other : L) : Bool × State L T :=
  match state.target other with
  | some t => (true, ((state.takeTarget l other).updateBackRef t other l).2)
  | none => (false, state.takeTarget l other)

/-- `if( _target ) { _target->remove_back_ref( this ); }` -/
def removeOwnRef (l : L) : State L T :=
  match state.target l with
  | some t => (state.removeBackRef t l).2
  | none => state

/-- `operator=( const LinkBase& other )` does not read the answer of `add_back_ref`. -/
def copyAssignLink (l other : L) : State L T :=
  let removed := state.removeOwnRef l
  let written := removed.setTarget l (removed.target other)
  match written.target l with
  | some t => (written.addBackRef t l).2
  | none => written

/-- `operator=( LinkBase&& other )` does not read the answer of `update_back_ref`. -/
def moveAssignLink (l other : L) : State L T :=
  let removed := state.removeOwnRef l
  let written := (removed.setTarget other none).setTarget l (removed.target other)
  match written.target l with
  | some t => (written.updateBackRef t other l).2
  | none => written

/-- `LinkTarget()` -/
def constructTarget (t : T) (maxLink : Nat) : State L T :=
  { state with tables := Function.update state.tables t (some (List.replicate maxLink none)) }

/-- The loops over the back pointers in `update_refs_after_move` and in the destructor. -/
def retarget (backPtrs : List (Option L)) (value : Option T) : State L T :=
  backPtrs.foldl (fun state link =>
    match link with
    | some l => state.setTarget l value
    | none => state) state

/-- `LinkTarget( const LinkTarget& other )` has the `MaxLink` of the other target and none of its links. -/
def copyConstructTarget (t other : T) : State L T :=
  match state.tables other with
  | some table => state.constructTarget t table.length
  | none => { state with dangled := true }

/-- `LinkTarget( LinkTarget&& other )` -/
def moveConstructTarget (t other : T) : State L T :=
  match state.tables other with
  | some table =>
      let copied := { state with tables := Function.update state.tables t (some table) }
      (copied.constructTarget other table.length).retarget table (some t)
  | none => { state with dangled := true }

/-- `operator=( LinkTarget&& other )` copies the table of a target with the same `MaxLink`. -/
def moveAssignTarget (t other : T) : State L T :=
  match state.tables t, state.tables other with
  | some _, some table =>
      let copied := { state with tables := Function.update state.tables t (some table) }
      let filled := copied.constructTarget other table.length
      -- A target that is moved to itself reads the table that was just filled.
      filled.retarget ((filled.tables t).getD []) (some t)
  | _, _ => { state with dangled := true }

/-- `sever_all_links` writes to the back pointers and to no link. -/
def severAllLinks (t : T) : State L T :=
  match state.tables t with
  | some table =>
      { state with tables := Function.update state.tables t (some (table.map fun _ => none)) }
  | none => { state with dangled := true }

def destroyTarget (t : T) : State L T :=
  match state.tables t with
  | some table =>
      let severed := state.retarget table none
      { severed with tables := Function.update severed.tables t none }
  | none => { state with dangled := true }

end State

inductive Action (L T : Type*) where
  | constructLink (l : L)
  | destroyLink (l : L)
  | connect (l : L) (t : T)
  | disconnect (l : L)
  | copyConstructLink (l other : L)
  | moveConstructLink (l other : L)
  | constructTarget (t : T) (maxLink : Nat)
  | copyConstructTarget (t other : T)
  | copyAssignTarget (t other : T)
  | moveConstructTarget (t other : T)
  | destroyTarget (t : T)
  deriving DecidableEq

/-- An operation works on objects that exist, and a new object is where none was. Links are disconnected
before they are destroyed. -/
def Action.Allowed (state : State L T) : Action L T → Prop
  | .constructLink l => state.links l = none
  | .destroyLink l => state.links l = some none
  | .connect l t => (state.links l).isSome ∧ (state.tables t).isSome
  | .disconnect l => (state.links l).isSome
  | .copyConstructLink l other => state.links l = none ∧ (state.links other).isSome
  | .moveConstructLink l other => state.links l = none ∧ (state.links other).isSome
  | .constructTarget t _ => state.tables t = none
  | .copyConstructTarget t other => state.tables t = none ∧ (state.tables other).isSome
  | .copyAssignTarget t other => (state.tables t).isSome ∧ (state.tables other).isSome
  | .moveConstructTarget t other => state.tables t = none ∧ (state.tables other).isSome
  | .destroyTarget t => (state.tables t).isSome

instance (state : State L T) : (action : Action L T) → Decidable (action.Allowed state)
  | .constructLink _ => inferInstanceAs (Decidable (_ = _))
  | .destroyLink _ => inferInstanceAs (Decidable (_ = _))
  | .connect _ _ => inferInstanceAs (Decidable (_ ∧ _))
  | .disconnect _ => inferInstanceAs (Decidable (_ = _))
  | .copyConstructLink _ _ => inferInstanceAs (Decidable (_ ∧ _))
  | .moveConstructLink _ _ => inferInstanceAs (Decidable (_ ∧ _))
  | .constructTarget _ _ => inferInstanceAs (Decidable (_ = _))
  | .copyConstructTarget _ _ => inferInstanceAs (Decidable (_ ∧ _))
  | .copyAssignTarget _ _ => inferInstanceAs (Decidable (_ ∧ _))
  | .moveConstructTarget _ _ => inferInstanceAs (Decidable (_ ∧ _))
  | .destroyTarget _ => inferInstanceAs (Decidable (_ = _))

/-- The effect of an action, with whether it connected a link or ended a connection. `operator=( const
LinkTarget& )` does nothing. -/
def Action.apply (state : State L T) : Action L T → Bool × State L T
  | .constructLink l => (false, state.constructLink l)
  | .destroyLink l => (false, state.destroyLink l)
  | .connect l t => state.connect l t
  | .disconnect l => state.disconnect l
  | .copyConstructLink l other => state.copyConstructLink l other
  | .moveConstructLink l other => state.moveConstructLink l other
  | .constructTarget t maxLink => (false, state.constructTarget t maxLink)
  | .copyConstructTarget t other => (false, state.copyConstructTarget t other)
  | .copyAssignTarget _ _ => (false, state)
  | .moveConstructTarget t other => (false, state.moveConstructTarget t other)
  | .destroyTarget t => (false, state.destroyTarget t)

/-- An event is an action with its result. -/
abbrev Event (L T : Type*) := Action L T × Bool

def system (L T : Type*) [DecidableEq L] [DecidableEq T] :
    StepSystem (State L T) (Action L T) (Event L T) where
  step state action :=
    if action.Allowed state then
      some ((action, (action.apply state).1), (action.apply state).2)
    else none

end MartCommon.Experimental.Link
