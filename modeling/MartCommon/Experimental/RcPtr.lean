import MartCommon.Library.Pool
import MartCommon.Library.StepSystem
import Mathlib.Algebra.Order.Ring.Int
import Mathlib.Tactic.Ring

namespace MartCommon.Experimental.RcPtr

open Library

/-- A call of a member function of a target. -/
inductive Call (Target : Type) where
  | rcInc (target : Target)
  | rcDec (target : Target)
  deriving DecidableEq

/-- The `RcPtr` objects that are alive, each with its `_ptr`, and the calls that were made so far. -/
structure World (Object Target : Type) where
  objects : Pool Object (Option Target) := []
  calls : List (Call Target) := []

variable {Object Target : Type}

/-- A call on the target of a pointer that is not null. -/
def World.call (world : World Object Target) (ptr : Option Target) (member : Target → Call Target) :
    World Object Target :=
  match ptr with
  | none => world
  | some target => { world with calls := world.calls ++ [member target] }

section Memory

variable [DecidableEq Object] (world : World Object Target) (this : Object) (ptr : Option Target)

namespace World

def load : Option (Option Target) := Pool.get this world.objects

def store : Option (World Object Target) :=
  (Pool.take this world.objects).map fun taken =>
    { world with objects := (this, ptr) :: taken.2 }

/-- The memory of a new object is free. -/
def create : Option (World Object Target) :=
  if this ∈ world.objects.map Prod.fst then none
  else some { world with objects := (this, ptr) :: world.objects }

def remove : Option (World Object Target) :=
  (Pool.take this world.objects).map fun taken => { world with objects := taken.2 }

end World

end Memory

section Members

variable [DecidableEq Object] (this other : Object) (world : World Object Target)

/-- `_condInc()` -/
def condInc : Option (World Object Target) := do
  let ptr ← world.load this
  pure (world.call ptr .rcInc)

/-- `_condDec()` -/
def condDec : Option (World Object Target) := do
  let ptr ← world.load this
  pure (world.call ptr .rcDec)

/-- `std::exchange( this->_ptr, nullptr )` -/
def exchangeNull : Option (Option Target × World Object Target) := do
  let old ← world.load this
  let world ← world.store this none
  pure (old, world)

/-- `RcPtr()` -/
def defaultConstruct : Option (World Object Target) := world.create this none

/-- `RcPtr( E* e )` -/
def construct (e : Option Target) : Option (World Object Target) := do
  let world ← world.create this e
  condInc this world

/-- `RcPtr( E& e )` -/
def constructRef (e : Target) : Option (World Object Target) := construct this world (some e)

/-- `RcPtr( const RcPtr& other )` -/
def copyConstruct : Option (World Object Target) := do
  let ptr ← world.load other
  let world ← world.create this ptr
  condInc this world

/-- `RcPtr( RcPtr&& other )` -/
def moveConstruct : Option (World Object Target) := do
  let (ptr, world) ← exchangeNull other world
  world.create this ptr

/-- `operator=( const RcPtr& other )` -/
def copyAssign : Option (World Object Target) := do
  let world ← condInc other world
  let world ← condDec this world
  let ptr ← world.load other
  world.store this ptr

/-- `operator=( RcPtr&& other )` -/
def moveAssign : Option (World Object Target) := do
  let world ← condDec this world
  let (ptr, world) ← exchangeNull other world
  world.store this ptr

/-- `~RcPtr()` -/
def destroy : Option (World Object Target) := do
  let world ← condDec this world
  world.remove this

/-- `reset( other )` of an object that is alive moves from a temporary. -/
def reset (temporary : Object) (e : Option Target) : Option (World Object Target) := do
  let _ ← world.load this
  let world ← construct temporary world e
  let world ← moveAssign this temporary world
  destroy temporary world

end Members

/-- The operations. A `reset` also says where its temporary is. -/
inductive Action (Object Target : Type) where
  | defaultConstruct (this : Object)
  | construct (this : Object) (e : Option Target)
  | constructRef (this : Object) (e : Target)
  | copyConstruct (this other : Object)
  | moveConstruct (this other : Object)
  | copyAssign (this other : Object)
  | moveAssign (this other : Object)
  | reset (this temporary : Object) (e : Option Target)
  | destroy (this : Object)

def Action.perform [DecidableEq Object] (world : World Object Target) :
    Action Object Target → Option (World Object Target)
  | .defaultConstruct this => RcPtr.defaultConstruct this world
  | .construct this e => RcPtr.construct this world e
  | .constructRef this e => RcPtr.constructRef this world e
  | .copyConstruct this other => RcPtr.copyConstruct this other world
  | .moveConstruct this other => RcPtr.moveConstruct this other world
  | .copyAssign this other => RcPtr.copyAssign this other world
  | .moveAssign this other => RcPtr.moveAssign this other world
  | .reset this temporary e => RcPtr.reset this world temporary e
  | .destroy this => RcPtr.destroy this world

/-- The target of an object that is about to be moved to itself. -/
def Action.selfMoved [DecidableEq Object] (world : World Object Target) : Action Object Target → Option Target
  | .moveAssign this other => if this = other then (world.load this).join else none
  | _ => none

/-- The objects and targets of a program. A step tells whether it moves an object with a target to
itself. -/
def system (Object Target : Type) [DecidableEq Object] :
    StepSystem (World Object Target) (Action Object Target) (Option Target) where
  step world action := (action.perform world).map fun after => (action.selfMoved world, after)

section Counting

variable [DecidableEq Target] (world : World Object Target) (ptr : Option Target) (e : Target)

/-- The number of live objects that point to a target. -/
def World.pointing : Nat := (Pool.values world.objects).count (some e)

/-- The calls of `rcInc` less those of `rcDec`. -/
def World.counted : Int := world.calls.count (.rcInc e) - world.calls.count (.rcDec e)

/-- What is counted beyond the live objects. -/
def World.surplus : Int := world.counted e - world.pointing e

/-- What a pointer counts for. -/
def weight : Int := if ptr = some e then 1 else 0

@[simp] theorem weight_none : weight (none : Option Target) e = 0 := rfl

theorem count_values_cons (entry : Object × Option Target) (pool : Pool Object (Option Target)) :
    ((Pool.values (entry :: pool)).count (some e) : Int) =
      (Pool.values pool).count (some e) + weight entry.2 e := by
  rw [Pool.values_cons, List.count_cons, weight]
  push_cast
  simp

theorem surplus_rcInc : (world.call ptr .rcInc).surplus e = world.surplus e + weight ptr e := by
  cases ptr with
  | none => simp [World.call]
  | some target =>
      simp [World.call, World.surplus, World.counted, World.pointing, List.count_append, weight,
        List.count_cons]
      ring

theorem surplus_rcDec : (world.call ptr .rcDec).surplus e = world.surplus e - weight ptr e := by
  cases ptr with
  | none => simp [World.call]
  | some target =>
      simp [World.call, World.surplus, World.counted, World.pointing, List.count_append, weight,
        List.count_cons]
      ring

end Counting

section Specs

variable [DecidableEq Object] [DecidableEq Target] {world after : World Object Target}
  {this other : Object} {ptr old : Option Target}

theorem count_values_take {pool rest : Pool Object (Option Target)}
    (taken : Pool.take this pool = some (ptr, rest)) (e : Target) :
    ((Pool.values pool).count (some e) : Int) = (Pool.values rest).count (some e) + weight ptr e := by
  rw [(Pool.values_take taken).count_eq]
  exact count_values_cons e (this, ptr) rest

omit [DecidableEq Target] in
@[simp] theorem load_call (member : Target → Call Target) :
    (world.call ptr member).load this = world.load this := by
  cases ptr <;> rfl

/-- A store replaces what one object counts for. -/
theorem store_spec (stored : world.store this ptr = some after) :
    ∃ old, world.load this = some old ∧
      (∀ e, after.surplus e = world.surplus e + weight old e - weight ptr e) ∧
      after.load this = some ptr ∧ ∀ other, this ≠ other → after.load other = world.load other := by
  obtain ⟨⟨old, rest⟩, taken, rfl⟩ := Option.map_eq_some_iff.mp stored
  refine ⟨old, by rw [World.load, Pool.get, taken, Option.map_some], fun e => ?_,
    Pool.get_cons_self _ _ _, fun other apart => ?_⟩
  · have before := count_values_take taken e
    have now := count_values_cons e (this, ptr) rest
    simp only [World.surplus, World.pointing, World.counted] at *
    omega
  · exact (Pool.get_cons_of_ne apart _ _).trans (Pool.get_of_take apart taken)

theorem create_spec (created : world.create this ptr = some after) :
    world.load this = none ∧ (∀ e, after.surplus e = world.surplus e - weight ptr e) ∧
      after.load this = some ptr ∧ ∀ other, this ≠ other → after.load other = world.load other := by
  rw [World.create, Option.ite_none_left_eq_some] at created
  obtain ⟨free, created⟩ := created
  obtain rfl := Option.some.inj created
  refine ⟨?_, fun e => ?_, Pool.get_cons_self _ _ _, fun other apart => Pool.get_cons_of_ne apart _ _⟩
  · rw [Option.eq_none_iff_forall_ne_some]
    intro ptr found
    exact free (Pool.mem_keys found)
  · have now := count_values_cons e (this, ptr) world.objects
    simp only [World.surplus, World.pointing, World.counted] at *
    omega

theorem remove_spec (removed : world.remove this = some after) :
    ∃ old, world.load this = some old ∧ ∀ e, after.surplus e = world.surplus e + weight old e := by
  obtain ⟨⟨old, rest⟩, taken, rfl⟩ := Option.map_eq_some_iff.mp removed
  refine ⟨old, by rw [World.load, Pool.get, taken, Option.map_some], fun e => ?_⟩
  have before := count_values_take taken e
  simp only [World.surplus, World.pointing, World.counted] at *
  omega

omit [DecidableEq Target] in
theorem cond_spec {member : Target → Call Target}
    (called : ((world.load this).bind fun ptr => some (world.call ptr member)) = some after) :
    ∃ ptr, world.load this = some ptr ∧ after = world.call ptr member := by
  obtain ⟨ptr, loaded, same⟩ := Option.bind_eq_some_iff.mp called
  exact ⟨ptr, loaded, (Option.some.inj same).symm⟩

omit [DecidableEq Target] in
theorem condInc_spec (called : condInc this world = some after) :
    ∃ ptr, world.load this = some ptr ∧ after = world.call ptr .rcInc :=
  cond_spec called

omit [DecidableEq Target] in
theorem condDec_spec (called : condDec this world = some after) :
    ∃ ptr, world.load this = some ptr ∧ after = world.call ptr .rcDec :=
  cond_spec called

theorem exchangeNull_spec (exchanged : exchangeNull this world = some (old, after)) :
    world.load this = some old ∧ (∀ e, after.surplus e = world.surplus e + weight old e) ∧
      after.load this = some none ∧ ∀ other, this ≠ other → after.load other = world.load other := by
  simp only [exchangeNull, Option.bind_eq_bind, Option.bind_eq_some_iff, Option.pure_def,
    Option.some.injEq, Prod.mk.injEq] at exchanged
  obtain ⟨ptr, loaded, final, stored, rfl, rfl⟩ := exchanged
  obtain ⟨replaced, before, surplus, self, others⟩ := store_spec stored
  rw [loaded] at before
  cases before
  exact ⟨loaded, fun e => by rw [surplus e, weight_none, sub_zero], self, others⟩

theorem construct_surplus {e : Option Target} (done : construct this world e = some after) :
    after.surplus = world.surplus ∧ world.load this = none ∧ after.load this = some e ∧
      ∀ other, this ≠ other → after.load other = world.load other := by
  obtain ⟨middle, created, called⟩ := Option.bind_eq_some_iff.mp done
  obtain ⟨free, surplus, self, others⟩ := create_spec created
  obtain ⟨ptr, loaded, rfl⟩ := condInc_spec called
  obtain rfl := Option.some.inj (self.symm.trans loaded)
  refine ⟨?_, free, by rwa [load_call], fun other apart => by rw [load_call, others other apart]⟩
  funext target
  rw [surplus_rcInc, surplus, sub_add_cancel]

theorem copyConstruct_surplus (done : copyConstruct this other world = some after) :
    after.surplus = world.surplus := by
  simp only [copyConstruct, Option.bind_eq_bind, Option.bind_eq_some_iff] at done
  obtain ⟨ptr, -, middle, created, called⟩ := done
  obtain ⟨-, surplus, self, -⟩ := create_spec created
  obtain ⟨same, loaded, rfl⟩ := condInc_spec called
  obtain rfl := Option.some.inj (self.symm.trans loaded)
  funext target
  rw [surplus_rcInc, surplus, sub_add_cancel]

theorem moveConstruct_surplus (done : moveConstruct this other world = some after) :
    after.surplus = world.surplus := by
  obtain ⟨⟨ptr, middle⟩, exchanged, created⟩ := Option.bind_eq_some_iff.mp done
  obtain ⟨-, taken, -, -⟩ := exchangeNull_spec exchanged
  obtain ⟨-, surplus, -, -⟩ := create_spec created
  funext target
  rw [surplus, taken, add_sub_cancel_right]

/-- The increment and the decrement find the pointers as they were, also where both are of one
object. -/
theorem copyAssign_surplus (done : copyAssign this other world = some after) :
    after.surplus = world.surplus := by
  simp only [copyAssign, Option.bind_eq_bind, Option.bind_eq_some_iff] at done
  obtain ⟨counted, increments, released, decrements, ptr, loaded, stored⟩ := done
  obtain ⟨new, known, rfl⟩ := condInc_spec increments
  obtain ⟨old, held, rfl⟩ := condDec_spec decrements
  obtain ⟨replaced, before, surplus, -, -⟩ := store_spec stored
  simp only [load_call] at loaded held before
  obtain rfl := Option.some.inj (known.symm.trans loaded)
  obtain rfl := Option.some.inj (held.symm.trans before)
  funext target
  rw [surplus, surplus_rcDec, surplus_rcInc]
  ring

/-- Where the objects are one, its pointer is counted down and comes back. -/
theorem moveAssign_surplus (done : moveAssign this other world = some after) :
    ∃ old, world.load this = some old ∧
      ∀ e, after.surplus e = world.surplus e - if this = other then weight old e else 0 := by
  simp only [moveAssign, Option.bind_eq_bind, Option.bind_eq_some_iff] at done
  obtain ⟨released, decrements, ⟨ptr, middle⟩, exchanged, stored⟩ := done
  obtain ⟨old, held, rfl⟩ := condDec_spec decrements
  obtain ⟨loaded, taken, self, others⟩ := exchangeNull_spec exchanged
  obtain ⟨replaced, before, surplus, -, -⟩ := store_spec stored
  rw [load_call] at loaded
  refine ⟨old, held, fun target => ?_⟩
  rw [surplus, taken, surplus_rcDec]
  by_cases same : this = other
  · subst same
    obtain rfl := Option.some.inj (held.symm.trans loaded)
    obtain rfl := Option.some.inj (self.symm.trans before)
    rw [if_pos rfl, weight_none]
    ring
  · rw [others this (Ne.symm same), load_call, held] at before
    obtain rfl := Option.some.inj before
    rw [if_neg same]
    ring

theorem destroy_surplus (done : destroy this world = some after) :
    after.surplus = world.surplus := by
  obtain ⟨released, decrements, removed⟩ := Option.bind_eq_some_iff.mp done
  obtain ⟨old, held, rfl⟩ := condDec_spec decrements
  obtain ⟨last, before, surplus⟩ := remove_spec removed
  rw [load_call] at before
  obtain rfl := Option.some.inj (held.symm.trans before)
  funext target
  rw [surplus, surplus_rcDec, sub_add_cancel]

/-- The temporary is another object than the one that is reset. -/
theorem reset_surplus {temporary : Object} {e : Option Target}
    (done : reset this world temporary e = some after) : after.surplus = world.surplus := by
  simp only [reset, Option.bind_eq_bind, Option.bind_eq_some_iff] at done
  obtain ⟨ptr, alive, made, constructed, assigned, moved, destroyed⟩ := done
  obtain ⟨first, free, -, -⟩ := construct_surplus constructed
  have apart : this ≠ temporary := by
    intro same
    rw [same, free] at alive
    contradiction
  obtain ⟨old, -, second⟩ := moveAssign_surplus moved
  rw [destroy_surplus destroyed, ← first]
  funext target
  rw [second, if_neg apart, sub_zero]

/-- Each step keeps the surplus, but for a move of an object to itself. -/
theorem step_surplus {action : Action Object Target} {event : Option Target}
    (stepped : (system Object Target).step world action = some (event, after)) (e : Target) :
    after.surplus e = world.surplus e - weight event e := by
  obtain ⟨final, done, same⟩ := Option.map_eq_some_iff.mp stepped
  obtain ⟨rfl, rfl⟩ := Prod.mk.inj same
  have regular (selfMoved : action.selfMoved world = none) (kept : final.surplus = world.surplus) :
      final.surplus e = world.surplus e - weight (action.selfMoved world) e := by
    rw [selfMoved, weight_none, sub_zero, kept]
  cases action with
  | defaultConstruct this =>
      obtain ⟨-, surplus, -, -⟩ := create_spec done
      exact surplus e
  | construct this ptr => exact regular rfl (construct_surplus done).1
  | constructRef this target => exact regular rfl (construct_surplus done).1
  | copyConstruct this other => exact regular rfl (copyConstruct_surplus done)
  | moveConstruct this other => exact regular rfl (moveConstruct_surplus done)
  | copyAssign this other => exact regular rfl (copyAssign_surplus done)
  | moveAssign this other =>
      obtain ⟨old, held, surplus⟩ := moveAssign_surplus done
      rw [surplus, Action.selfMoved, held, Option.join_some]
      split <;> rfl
  | reset this temporary target => exact regular rfl (reset_surplus done)
  | destroy this => exact regular rfl (destroy_surplus done)

/-- After a run, the surplus of a target is short by one for each time that an object was moved to
itself while it pointed there. -/
theorem run_surplus {history : List (Option Target)}
    (run : (system Object Target).Run {} history world) (e : Target) :
    world.surplus e = -(history.count (some e) : Int) := by
  apply run.invariant fun history world => world.surplus e = -(history.count (some e) : Int)
  · rfl
  · intro history before action event after surplus stepped
    rw [step_surplus stepped e, surplus, List.count_append, List.count_singleton, weight]
    push_cast
    simp only [beq_iff_eq]
    ring

/-- After every run the calls on a target count its live objects exactly when no object that pointed
to it was moved to itself. -/
theorem counts_iff {history : List (Option Target)}
    (run : (system Object Target).Run {} history world) (e : Target) :
    (world.calls.count (.rcInc e) - world.calls.count (.rcDec e) : Int) = world.pointing e ↔
      some e ∉ history := by
  have surplus := run_surplus run e
  rw [World.surplus, World.counted] at surplus
  rw [← List.count_eq_zero]
  omega

end Specs

/-- Copies, an object assigned to itself, two objects with one target, a move and a reset. -/
def sharingActions : List (Action Nat Char) :=
  [.construct 0 (some 'a'), .copyConstruct 1 0, .copyAssign 1 1, .moveAssign 1 0, .constructRef 2 'b',
    .copyAssign 0 2, .reset 2 3 (some 'a'), .moveConstruct 3 2, .destroy 2]

theorem counts_iff_sharing :
    ∃ history world, (system Nat Char).Run {} history world ∧ world.pointing 'a' = 2 ∧
      (world.calls.count (.rcInc 'a') - world.calls.count (.rcDec 'a') : Int) = world.pointing 'a' := by
  have executed : ((system Nat Char).execute {} sharingActions).map
      (fun answer => (decide (some 'a' ∈ answer.1), answer.2.pointing 'a')) = some (false, 2) := by
    decide
  obtain ⟨⟨history, world⟩, ran, final⟩ := Option.map_eq_some_iff.mp executed
  obtain ⟨regular, pointing⟩ := Prod.mk.inj final
  have run := StepSystem.run_of_execute sharingActions ran
  exact ⟨history, world, run, pointing, (counts_iff run 'a').mpr (of_decide_eq_false regular)⟩

/-- An object that is moved to itself still points to its target, whose counter went down. -/
theorem counts_selfMoved :
    ∃ history world, (system Nat Char).Run {} history world ∧ world.pointing 'a' = 1 ∧
      (world.calls.count (.rcInc 'a') - world.calls.count (.rcDec 'a') : Int) ≠
        world.pointing 'a' := by
  refine ⟨_, _, StepSystem.run_of_execute [.construct 0 (some 'a'), .moveAssign 0 0] rfl, rfl, ?_⟩
  decide

end MartCommon.Experimental.RcPtr
