import MartCommon.Library.Pool
import MartCommon.Library.StepSystem
import Mathlib.Data.BitVec

namespace MartCommon.Experimental.StoragePool

open Library

/-- `StorageSlot` with its atomic counter and whether a `T` lives in its memory. -/
structure StorageSlot where
  cnt : BitVec 32 := -1
  live : Bool := false
  deriving DecidableEq, Repr

/-- The two reference classes. Both hold an `RcPtr`. -/
inductive RefKind where
  | ref
  | constRef
  deriving DecidableEq, Repr

/-- A `Ref` or `ConstRef` with its pointer to a slot. -/
structure Reference (n : Nat) where
  kind : RefKind
  ptr : Option (Fin n) := none
  deriving DecidableEq, Repr

/-- The next atomic step of an operation. The references under `after` exist from its end on. -/
inductive Phase (n : Nat) (Object : Type*) where
  /-- `find_if` in `alloc()`: the load of the next counter, or the end of the array -/
  | scan (kind : RefKind) (target : Object) (index : Nat)
  /-- `alloc()`: the `compare_exchange_strong` -/
  | exchange (kind : RefKind) (target : Object) (entry : Fin n)
  /-- `construct()`: the placement new -/
  | place (kind : RefKind) (target : Object) (entry : Fin n)
  /-- `RcPtr( E* )` in `construct()`: `rcInc()` -/
  | publish (kind : RefKind) (target : Object) (entry : Fin n)
  /-- a copy: `rcInc()`, and `rcDec()` of the old slot where it assigns -/
  | acquire (kind : RefKind) (target : Object) (entry : Fin n) (old : Option (Fin n))
  /-- `rcDec()`: the `fetch_sub` -/
  | release (entry : Fin n) (after : Pool Object (Reference n))
  /-- `rcDec()`: the destructor call -/
  | destruct (entry : Fin n) (after : Pool Object (Reference n))
  /-- `rcDec()`: the store of `-1` -/
  | free (entry : Fin n) (after : Pool Object (Reference n))

/-- An operation in progress. Nobody changes the object that it reads from. -/
structure Job (n : Nat) (Object : Type*) where
  borrowed : Option Object := none
  phase : Phase n Object

structure State (n : Nat) (Object Thread : Type*) where
  slots : Fin n → StorageSlot := fun _ => {}
  refs : Pool Object (Reference n) := []
  jobs : Pool Thread (Job n Object) := []

inductive Event (n : Nat) (Thread : Type*) where
  | silent
  | loaded (thread : Thread) (entry : Fin n) (cnt : BitVec 32)
  | allocFailed (thread : Thread)
  | exchanged (thread : Thread) (entry : Fin n) (success : Bool)
  | constructed (thread : Thread) (entry : Fin n)
  | incremented (thread : Thread) (entry : Fin n)
  | decremented (thread : Thread) (entry : Fin n) (old : BitVec 32)
  | destroyed (thread : Thread) (entry : Fin n)
  | stored (thread : Thread) (entry : Fin n)
  deriving DecidableEq, Repr

variable {n : Nat} {Object Thread : Type*}

/-- What an atomic step leaves to do, or the references that exist after the last one. -/
abbrev Rest (n : Nat) (Object : Type*) := Phase n Object ⊕ Pool Object (Reference n)

/-- `_condDec()` of a pointer. -/
def condDec (ptr : Option (Fin n)) (after : Pool Object (Reference n)) : Rest n Object :=
  match ptr with
  | some entry => .inl (.release entry after)
  | none => .inr after

/-- One atomic step of an operation. An empty `Optional` has a null reference. -/
def Phase.advance (slots : Fin n → StorageSlot) (thread : Thread) :
    Phase n Object → Event n Thread × (Fin n → StorageSlot) × Rest n Object
  | .scan kind target index =>
      if inside : index < n then
        let entry : Fin n := ⟨index, inside⟩
        (.loaded thread entry (slots entry).cnt, slots,
          .inl (if (slots entry).cnt = -1 then .exchange kind target entry
            else .scan kind target (index + 1)))
      else (.allocFailed thread, slots, .inr [(target, ⟨kind, none⟩)])
  | .exchange kind target entry =>
      if (slots entry).cnt = -1 then
        (.exchanged thread entry true,
          Function.update slots entry { slots entry with cnt := 0 },
          .inl (.place kind target entry))
      else (.exchanged thread entry false, slots, .inl (.scan kind target 0))
  | .place kind target entry =>
      (.constructed thread entry, Function.update slots entry { slots entry with live := true },
        .inl (.publish kind target entry))
  | .publish kind target entry =>
      (.incremented thread entry,
        Function.update slots entry { slots entry with cnt := (slots entry).cnt + 1 },
        .inr [(target, ⟨kind, some entry⟩)])
  | .acquire kind target entry old =>
      (.incremented thread entry,
        Function.update slots entry { slots entry with cnt := (slots entry).cnt + 1 },
        condDec old [(target, ⟨kind, some entry⟩)])
  | .release entry after =>
      (.decremented thread entry (slots entry).cnt,
        Function.update slots entry { slots entry with cnt := (slots entry).cnt - 1 },
        if (slots entry).cnt = 1 then .inl (.destruct entry after) else .inr after)
  | .destruct entry after =>
      (.destroyed thread entry, Function.update slots entry { slots entry with live := false },
        .inl (.free entry after))
  | .free entry after =>
      (.stored thread entry, Function.update slots entry { slots entry with cnt := -1 },
        .inr after)

/-- The objects that an operation creates or changes. -/
def Phase.names : Phase n Object → List Object
  | .scan _ target _ | .exchange _ target _ | .place _ target _ | .publish _ target _
  | .acquire _ target _ _ => [target]
  | .release _ after | .destruct _ after | .free _ after => after.map Prod.fst

namespace State

variable (state : State n Object Thread)

/-- The names that a reference or an operation in progress uses. -/
def names : List Object :=
  state.refs.map Prod.fst ++ (Pool.values state.jobs).flatMap fun job => job.phase.names

/-- The objects that operations in progress read from. -/
def borrowed : List Object :=
  (Pool.values state.jobs).filterMap Job.borrowed

/-- An operation goes on with its next step, or it is at its end. -/
def resume (thread : Thread) (borrowed : Option Object) : Rest n Object → State n Object Thread
  | .inl phase => { state with jobs := (thread, ⟨borrowed, phase⟩) :: state.jobs }
  | .inr after => { state with refs := after ++ state.refs }

/-- A thread is in one operation at most. -/
def idle (thread : Thread) : Prop := thread ∉ state.jobs.map Prod.fst

variable [DecidableEq Object]

/-- A reference that is read but not changed. -/
def read (object : Object) : Option (Reference n) := (Pool.take object state.refs).map Prod.fst

/-- A reference that is changed is out of reach until the operation ends. Nobody reads from it. -/
def take (object : Object) : Option (Reference n × State n Object Thread) :=
  if object ∈ state.borrowed then none
  else (Pool.take object state.refs).map fun taken => (taken.1, { state with refs := taken.2 })

end State

inductive Action (Object Thread : Type*) where
  | construct (thread : Thread) (kind : RefKind) (target : Object)
  | defaultConstruct (kind : RefKind) (target : Object)
  | copyConstruct (thread : Thread) (target source : Object)
  | moveConstruct (target source : Object)
  | convert (target source : Object)
  | copyAssign (thread : Thread) (target source : Object)
  | moveAssign (thread : Thread) (target source : Object)
  | drop (thread : Thread) (target : Object)
  | tick (thread : Thread)

variable [DecidableEq Object] [DecidableEq Thread] (state : State n Object Thread)

instance (thread : Thread) : Decidable (state.idle thread) :=
  inferInstanceAs (Decidable (¬ _))

/-- `RcPtr( const RcPtr& other )` -/
def copyConstruct (thread : Thread) (target source : Object) : Option (State n Object Thread) :=
  (state.read source).map fun other =>
    state.resume thread (some source) (match other.ptr with
      | some entry => .inl (.acquire other.kind target entry none)
      | none => .inr [(target, other)])

/-- `RcPtr( RcPtr&& other )` in an object of the given class. -/
def moveConstruct (kind : RefKind) (target source : Object) : Option (State n Object Thread) :=
  (state.take source).map fun taken =>
    { taken.2 with
      refs := (target, ⟨kind, taken.1.ptr⟩) :: (source, { taken.1 with ptr := none }) ::
        taken.2.refs }

/-- `operator=( const RcPtr& other )` increments before it decrements. -/
def copyAssign (thread : Thread) (target source : Object) : Option (State n Object Thread) :=
  (state.take target).bind fun taken =>
    let assign (borrowed : Option Object) (other : Reference n) : State n Object Thread :=
      taken.2.resume thread borrowed (match other.ptr with
        | some entry => .inl (.acquire taken.1.kind target entry taken.1.ptr)
        | none => condDec taken.1.ptr [(target, { taken.1 with ptr := none })])
    if source = target then some (assign none taken.1)
    else (taken.2.read source).map fun other => assign (some source) other

/-- `operator=( RcPtr&& other )` from another object. -/
def moveAssign (thread : Thread) (target source : Object) : Option (State n Object Thread) :=
  (state.take target).bind fun self =>
    (self.2.take source).map fun other =>
      other.2.resume thread none (condDec self.1.ptr
        [(target, { self.1 with ptr := other.1.ptr }), (source, { other.1 with ptr := none })])

/-- The kind of a reference, by its name. -/
def kindOf (object : Object) : Option RefKind := (state.read object).map Reference.kind

/-- Operations begin in threads that are idle, on references of the same class, and with names that are
not in use for new references. Moves and conversions have no atomic step. -/
def step : Action Object Thread → Option (Event n Thread × State n Object Thread)
  | .construct thread kind target =>
      if state.idle thread ∧ target ∉ state.names then
        some (.silent, state.resume thread none (.inl (.scan kind target 0)))
      else none
  | .defaultConstruct kind target =>
      if target ∉ state.names then
        some (.silent, { state with refs := (target, ⟨kind, none⟩) :: state.refs })
      else none
  | .copyConstruct thread target source =>
      if state.idle thread ∧ target ∉ state.names then
        (copyConstruct state thread target source).map fun after => (.silent, after)
      else none
  | .moveConstruct target source =>
      if target ∉ state.names then
        (kindOf state source).bind fun kind =>
          (moveConstruct state kind target source).map fun after => (.silent, after)
      else none
  | .convert target source =>
      if target ∉ state.names ∧ kindOf state source = some .ref then
        (moveConstruct state .constRef target source).map fun after => (.silent, after)
      else none
  | .copyAssign thread target source =>
      if state.idle thread ∧ kindOf state target = kindOf state source then
        (copyAssign state thread target source).map fun after => (.silent, after)
      else none
  | .moveAssign thread target source =>
      if state.idle thread ∧ target ≠ source ∧ kindOf state target = kindOf state source then
        (moveAssign state thread target source).map fun after => (.silent, after)
      else none
  | .drop thread target =>
      if state.idle thread then
        (state.take target).map fun taken =>
          (.silent, taken.2.resume thread none (condDec taken.1.ptr []))
      else none
  | .tick thread =>
      (Pool.take thread state.jobs).map fun taken =>
        let stepped := taken.1.phase.advance state.slots thread
        (stepped.1, { state with slots := stepped.2.1, jobs := taken.2 }.resume thread
          taken.1.borrowed stepped.2.2)

/-- An object store with `n` slots, its references and the threads that work on them. -/
def system (n : Nat) (Object Thread : Type*) [DecidableEq Object] [DecidableEq Thread] :
    StepSystem (State n Object Thread) (Action Object Thread) (Event n Thread) := ⟨step⟩

end MartCommon.Experimental.StoragePool
