import MartCommon.Library.Ownership
import MartCommon.Library.StepSystem

namespace MartCommon.Mt

open Library

inductive OnDestruction where
  | join
  | detach
  deriving DecidableEq

/-- The members of a `Thread`. A joinable `std::thread` names a thread of the operating system. -/
structure Thread (Id : Type*) where
  thread : Option Id := none
  onExit : OnDestruction := .join

namespace Thread

/-- The objects in memory, and what the operating system knows of its threads, while the program runs. -/
structure State (Object Id : Type*) where
  running : Bool := true
  alive : Object → Bool := fun _ => false
  threads : Object → Thread Id := fun _ => {}
  started : Id → Bool := fun _ => false
  finished : Id → Bool := fun _ => false

/-- A thread starts, ends its work, and is joined or detached. A call throws where there is no thread, or no end
of it. The program is terminated where an exception leaves a destructor, and where a joinable `std::thread`
is lost. -/
inductive Event (Id : Type*) where
  | silent
  | started (id : Id)
  | finished (id : Id)
  | joined (id : Id)
  | detached (id : Id)
  | thrown
  | terminated
  deriving DecidableEq

/-- An operation on the objects, or a thread that ends its work. The operating system may find a deadlock where
a thread is to be joined, such as in that thread itself. -/
inductive Action (Object Id : Type*) where
  | default (object : Object)
  | start (object : Object) (id : Id)
  | moveConstruct (object other : Object)
  | moveAssign (self other : Object) (deadlock : Bool)
  | setExitAction (object : Object) (action : OnDestruction)
  | join (object : Object) (deadlock : Bool)
  | detach (object : Object)
  | destroy (object : Object) (deadlock : Bool)
  | finish (id : Id)

variable {Object Id : Type*} [DecidableEq Object] [DecidableEq Id]

/-- The joinable thread of an object. -/
def State.holds (state : State Object Id) : Object → Option Id := Thread.thread ∘ state.threads

def State.set (state : State Object Id) (object : Object) (thread : Thread Id) : State Object Id :=
  { state with threads := Function.update state.threads object thread }

/-- A `std::thread` gives up its thread. -/
def State.leave (state : State Object Id) (object : Object) : State Object Id :=
  state.set object { state.threads object with thread := none }

/-- `join()` waits for the end of the thread. It throws where that would be a deadlock. -/
def join (state : State Object Id) (object : Object) (deadlock : Bool) :
    Option (Event Id × State Object Id) :=
  match state.holds object with
  | none => some (.thrown, state)
  | some id =>
      if state.finished id then some (.joined id, state.leave object)
      else if deadlock then some (.thrown, state)
      else none

/-- `getThread().detach()` -/
def detach (state : State Object Id) (object : Object) : Option (Event Id × State Object Id) :=
  match state.holds object with
  | none => some (.thrown, state)
  | some id => some (.detached id, state.leave object)

/-- `execute_exit_action` -/
def executeExitAction (state : State Object Id) (object : Object) (deadlock : Bool) :
    Option (Event Id × State Object Id) :=
  if (state.holds object).isSome then
    match (state.threads object).onExit with
    | .join => join state object deadlock
    | .detach => detach state object
  else some (.silent, state)

/-- A constructor makes an object where none is. -/
def State.construct (state : State Object Id) (object : Object) (thread : Thread Id) :
    State Object Id :=
  { state.set object thread with alive := Function.update state.alive object true }

/-- `std::terminate()` -/
def State.terminate (state : State Object Id) : Event Id × State Object Id :=
  (.terminated, { state with running := false })

/-- `operator=( Thread&& )`. The `std::thread` must not be joinable when it is assigned to. -/
def moveAssign (state : State Object Id) (self other : Object) (deadlock : Bool) :
    Option (Event Id × State Object Id) :=
  (executeExitAction state self deadlock).map fun ended =>
    if ended.1 = .thrown then ended
    else if (ended.2.holds self).isSome then ended.2.terminate
    else
      let taken := ended.2.holds other
      let left := ended.2.leave other
      (ended.1, left.set self { thread := taken, onExit := (left.threads other).onExit })

/-- `~Thread()` is `noexcept`. Behind it `~std::thread()` wants an object that is not joinable. -/
def destroy (state : State Object Id) (object : Object) (deadlock : Bool) :
    Option (Event Id × State Object Id) :=
  (executeExitAction state object deadlock).map fun ended =>
    if ended.1 = .thrown ∨ (ended.2.holds object).isSome then ended.2.terminate
    else (ended.1, { ended.2 with alive := Function.update ended.2.alive object false })

/-- The program uses objects within their lifetime only, and the operating system names each thread
anew. -/
def act (state : State Object Id) : Action Object Id → Option (Event Id × State Object Id)
  | .default object =>
      if state.alive object then none else some (.silent, state.construct object {})
  | .start object id =>
      if state.alive object || state.started id then none
      else some (.started id, { state.construct object { thread := some id } with
        started := Function.update state.started id true })
  | .moveConstruct object other =>
      if state.alive other && !state.alive object then
        some (.silent, (state.leave other).construct object (state.threads other))
      else none
  | .moveAssign self other deadlock =>
      if state.alive self && state.alive other then moveAssign state self other deadlock else none
  | .setExitAction object action =>
      if state.alive object then
        some (.silent, state.set object { state.threads object with onExit := action })
      else none
  | .join object deadlock => if state.alive object then join state object deadlock else none
  | .detach object => if state.alive object then detach state object else none
  | .destroy object deadlock => if state.alive object then destroy state object deadlock else none
  | .finish id =>
      if state.started id && !state.finished id then
        some (.finished id, { state with finished := Function.update state.finished id true })
      else none

/-- A program that was terminated does nothing more. -/
def step (state : State Object Id) (action : Action Object Id) : Option (Event Id × State Object Id) :=
  if state.running then act state action else none

def system (Object Id : Type*) [DecidableEq Object] [DecidableEq Id] :
    StepSystem (State Object Id) (Action Object Id) (Event Id) := ⟨step⟩

/-- What an event means for the ownership of threads. -/
def Event.ownership : Event Id → Option (Ownership.Event Id)
  | .started id => some (.acquired id)
  | .joined id => some (.closed id)
  | .detached id => some (.released id)
  | _ => none

/-- The ownership events of a history. -/
def ledger (history : List (Event Id)) : List (Ownership.Event Id) := history.filterMap Event.ownership

/-- Threads are held by one living object each, and those that are held or have ended were started. -/
structure Safe (history : List (Event Id)) (state : State Object Id) : Prop where
  owned : Ownership.Owned (ledger history) state.holds
  dead : ∀ object, state.alive object = false → state.holds object = none
  started : ∀ object id, state.holds object = some id → state.started id = true
  finished : ∀ id, state.finished id = true → .finished id ∈ history

section Steps

variable {history : List (Event Id)} {before after : State Object Id} {object self other : Object}
  {event : Event Id} {action : Action Object Id} {deadlock : Bool}

omit [DecidableEq Id] in
theorem holds_set (state : State Object Id) (object : Object) (thread : Thread Id) :
    (state.set object thread).holds = Function.update state.holds object thread.thread :=
  Function.comp_update _ _ _ _

omit [DecidableEq Id] in
theorem ledger_append (history : List (Event Id)) (event : Event Id) :
    ledger (history ++ [event]) = ledger history ++ [event].filterMap Event.ownership :=
  List.filterMap_append

omit [DecidableEq Object] in
/-- An event that is not about the objects changes nothing for them. -/
theorem Safe.quiet (safe : Safe history before) (unseen : event.ownership = none) (holds : after.holds = before.holds)
    (dead : ∀ object, after.alive object = false → before.holds object = none)
    (started : ∀ id, before.started id = true → after.started id = true)
    (finished : ∀ id, after.finished id = true → before.finished id = true ∨ event = .finished id) :
    Safe (history ++ [event]) after where
  owned := by
    have same : ledger (history ++ [event]) = ledger history := by
      rw [ledger_append, List.filterMap_cons, unseen]
      exact List.append_nil _
    rw [same, holds]
    exact safe.owned
  dead := fun object gone => by rw [holds]; exact dead object gone
  started := fun object id held => started id (safe.started object id (holds ▸ held))
  finished := by
    intro id ended
    rcases finished id ended with earlier | rfl
    · exact List.mem_append_left _ (safe.finished id earlier)
    · exact List.mem_append_right _ (List.mem_singleton.mpr rfl)

/-- A joinable thread is joined or detached, and its object has none then. -/
theorem Safe.ends {id : Id} (safe : Safe history before) (held : before.holds object = some id)
    (ended : event = .joined id ∨ event = .detached id) :
    Safe (history ++ [event]) (before.leave object) where
  owned := by
    obtain ⟨closing, seen, disposal⟩ : ∃ closing, [event].filterMap Event.ownership = [closing] ∧
        (closing = .closed id ∨ closing = .released id) := by
      rcases ended with rfl | rfl
      · exact ⟨_, rfl, .inl rfl⟩
      · exact ⟨_, rfl, .inr rfl⟩
    rw [ledger_append, seen, State.leave, holds_set]
    exact safe.owned.dispose held disposal
  dead := by
    intro target gone
    rw [State.leave, holds_set]
    by_cases same : target = object
    · rw [same, Function.update_self]
    · rw [Function.update_of_ne same]
      exact safe.dead target gone
  started := by
    intro target id' held'
    rw [State.leave, holds_set] at held'
    by_cases same : target = object
    · rw [same, Function.update_self] at held'
      contradiction
    · rw [Function.update_of_ne same] at held'
      exact safe.started target id' held'
  finished := fun id' done => List.mem_append_left _ (safe.finished id' done)

/-- An object without a thread takes one over. -/
theorem Safe.moved (safe : Safe history before) (empty : before.holds self = none)
    (holds : after.holds =
      Function.update (Function.update before.holds other none) self (before.holds other))
    (alive : ∀ target, after.alive target = false → before.alive target = false ∧ target ≠ self)
    (started : after.started = before.started) (finished : after.finished = before.finished) :
    Safe history after where
  owned := holds ▸ safe.owned.move empty
  dead := by
    intro target gone
    obtain ⟨before, apart⟩ := alive target gone
    rw [holds, Function.update_of_ne apart]
    by_cases source : target = other
    · rw [source, Function.update_self]
    · rw [Function.update_of_ne source]
      exact safe.dead target before
  started := by
    intro target id held
    rw [holds] at held
    rw [started]
    by_cases same : target = self
    · rw [same, Function.update_self] at held
      exact safe.started other id held
    · rw [Function.update_of_ne same] at held
      by_cases source : target = other
      · rw [source, Function.update_self] at held
        contradiction
      · rw [Function.update_of_ne source] at held
        exact safe.started target id held
  finished := finished ▸ safe.finished

omit [DecidableEq Id] in
/-- Each call of `join` ends a thread that is at its end, or it throws and changes nothing. -/
theorem join_eq_some (joined : join before object deadlock = some (event, after)) :
    (event = .thrown ∧ after = before ∧
        ∀ id, before.holds object = some id → before.finished id = false ∧ deadlock = true) ∨
      ∃ id, before.holds object = some id ∧ before.finished id = true ∧ event = .joined id ∧
        after = before.leave object := by
  unfold join at joined
  split at joined
  · rename_i none
    cases joined
    refine .inl ⟨rfl, rfl, fun id held => ?_⟩
    rw [none] at held
    contradiction
  · rename_i id held
    split at joined
    · rename_i done
      cases joined
      exact .inr ⟨id, held, done, rfl, rfl⟩
    · rename_i works
      obtain ⟨locked, same⟩ := Option.ite_none_right_eq_some.mp joined
      cases same
      refine .inl ⟨rfl, rfl, fun id' held' => ?_⟩
      rw [held] at held'
      cases held'
      exact ⟨Bool.eq_false_iff.mpr works, locked⟩

omit [DecidableEq Id] in
theorem detach_eq_some (detached : detach before object = some (event, after)) :
    (event = .thrown ∧ after = before ∧ before.holds object = none) ∨
      ∃ id, before.holds object = some id ∧ event = .detached id ∧ after = before.leave object := by
  unfold detach at detached
  split at detached
  · rename_i none
    cases detached
    exact .inl ⟨rfl, rfl, none⟩
  · rename_i id held
    cases detached
    exact .inr ⟨id, held, rfl, rfl⟩

omit [DecidableEq Id] in
/-- The exit action is the one that is set. It throws where it is a deadlock, and otherwise the object has no
thread behind it. -/
theorem executeExitAction_eq_some
    (executed : executeExitAction before object deadlock = some (event, after)) :
    (before.holds object = none ∧ event = .silent ∧ after = before) ∨
      (∃ id, before.holds object = some id ∧ (before.threads object).onExit = .join ∧
        before.finished id = false ∧ deadlock = true ∧ event = .thrown ∧ after = before) ∨
      ∃ id, before.holds object = some id ∧ after = before.leave object ∧
        ((before.threads object).onExit = .join ∧ before.finished id = true ∧ event = .joined id ∨
          (before.threads object).onExit = .detach ∧ event = .detached id) := by
  unfold executeExitAction at executed
  split at executed
  · rename_i joinable
    obtain ⟨found, holds⟩ := Option.isSome_iff_exists.mp joinable
    split at executed
    · rename_i onExit
      rcases join_eq_some executed with ⟨thrown, same, locked⟩ | ⟨id, held, done, ended, same⟩
      · obtain ⟨works, locked⟩ := locked found holds
        exact .inr (.inl ⟨found, holds, onExit, works, locked, thrown, same⟩)
      · exact .inr (.inr ⟨id, held, same, .inl ⟨onExit, done, ended⟩⟩)
    · rename_i onExit
      rcases detach_eq_some executed with ⟨-, -, none⟩ | ⟨id, held, ended, same⟩
      · rw [none] at holds
        contradiction
      · exact .inr (.inr ⟨id, held, same, .inr ⟨onExit, ended⟩⟩)
  · rename_i empty
    cases executed
    exact .inl ⟨Option.not_isSome_iff_eq_none.mp empty, rfl, rfl⟩

omit [DecidableEq Id] in
/-- An exit action that returns leaves the object without a thread. -/
theorem exit_returned (executed : executeExitAction before object deadlock = some (event, after))
    (returned : event ≠ .thrown) : after.holds object = none := by
  rcases executeExitAction_eq_some executed with
    ⟨empty, -, rfl⟩ | ⟨id, -, -, -, -, thrown, -⟩ | ⟨id, -, rfl, -⟩
  · exact empty
  · exact absurd thrown returned
  · rw [State.leave, holds_set, Function.update_self]

/-- The assignment is the exit action and the move, unless the first throws. -/
theorem moveAssign_eq_some (assigned : moveAssign before self other deadlock = some (event, after)) :
    ∃ middle, executeExitAction before self deadlock = some (event, middle) ∧
      ((event = .thrown ∧ after = middle) ∨
        (event ≠ .thrown ∧ middle.holds self = none ∧
          after = (middle.leave other).set self
            { thread := middle.holds other, onExit := ((middle.leave other).threads other).onExit })) := by
  obtain ⟨⟨exited, middle⟩, executed, same⟩ := Option.map_eq_some_iff.mp assigned
  dsimp only at same
  split at same
  · rename_i thrown
    cases same
    exact ⟨after, executed, .inl ⟨thrown, rfl⟩⟩
  · rename_i returned
    have empty := exit_returned executed returned
    rw [empty, Option.isSome_none, if_neg Bool.false_ne_true] at same
    cases same
    exact ⟨middle, executed, .inr ⟨returned, empty, rfl⟩⟩

/-- The destructor is the exit action and the end of the lifetime. It terminates the program where the first
throws. -/
theorem destroy_eq_some (destroyed : destroy before object deadlock = some (event, after)) :
    ∃ exited middle, executeExitAction before object deadlock = some (exited, middle) ∧
      ((exited = .thrown ∧ event = .terminated ∧ after = { middle with running := false }) ∨
        (exited ≠ .thrown ∧ middle.holds object = none ∧ event = exited ∧
          after = { middle with alive := Function.update middle.alive object false })) := by
  obtain ⟨⟨exited, middle⟩, executed, same⟩ := Option.map_eq_some_iff.mp destroyed
  refine ⟨exited, middle, executed, ?_⟩
  dsimp only at same
  by_cases thrown : exited = .thrown
  · rw [if_pos (.inl thrown)] at same
    cases same
    exact .inl ⟨thrown, rfl, rfl⟩
  · have empty := exit_returned executed thrown
    have goesOn : ¬(exited = .thrown ∨ (middle.holds object).isSome = true) := by
      rw [empty, Option.isSome_none]
      rintro (throws | lost)
      · exact thrown throws
      · contradiction
    rw [if_neg goesOn] at same
    cases same
    exact .inr ⟨thrown, empty, rfl, rfl⟩

omit [DecidableEq Object] in
/-- An event that is not about a thread, without a change, keeps all. -/
theorem Safe.unchanged (safe : Safe history before) (unseen : event.ownership = none) :
    Safe (history ++ [event]) before :=
  safe.quiet unseen rfl safe.dead (fun _ => id) fun _ => .inl

theorem Safe.exit (safe : Safe history before)
    (executed : executeExitAction before object deadlock = some (event, after)) :
    Safe (history ++ [event]) after ∧ after.alive = before.alive := by
  rcases executeExitAction_eq_some executed with
    ⟨-, rfl, rfl⟩ | ⟨id, -, -, -, -, rfl, rfl⟩ | ⟨id, held, rfl, ended⟩
  · exact ⟨safe.unchanged rfl, rfl⟩
  · exact ⟨safe.unchanged rfl, rfl⟩
  · refine ⟨safe.ends held ?_, rfl⟩
    exact ended.imp (fun joined => joined.2.2) fun detached => detached.2

omit [DecidableEq Id] in
/-- An object without a thread, and a new one, hold what they are given. -/
theorem holds_construct (state : State Object Id) (object : Object) (thread : Thread Id) :
    (state.construct object thread).holds = Function.update state.holds object thread.thread :=
  holds_set state object thread

/-- A constructor gives life to one object. -/
theorem dead_update {alive : Object → Bool} {target : Object}
    (gone : Function.update alive object true target = false) : alive target = false ∧ target ≠ object := by
  have apart : target ≠ object := by
    rintro rfl
    rw [Function.update_self] at gone
    contradiction
  rw [Function.update_of_ne apart] at gone
  exact ⟨gone, apart⟩

/-- The default constructor makes an object without a thread. -/
theorem Safe.default (safe : Safe history before) (dead : before.alive object = false) :
    Safe (history ++ [.silent]) (before.construct object {}) := by
  refine safe.quiet rfl ?_ ?_ ?_ ?_
  · rw [holds_construct]
    exact Function.update_eq_self_iff.mpr (safe.dead object dead).symm
  · exact fun target gone => safe.dead target (dead_update gone).1
  · exact fun _ => id
  · exact fun _ => .inl

/-- The move constructor takes over the thread of the other object. -/
theorem Safe.moveConstruct (safe : Safe history before) (dead : before.alive object = false) :
    Safe (history ++ [.silent]) ((before.leave other).construct object (before.threads other)) := by
  have quiet : Safe (history ++ [.silent]) before := safe.unchanged rfl
  apply quiet.moved (safe.dead object dead)
  · rw [holds_construct, State.leave, holds_set]
    rfl
  · exact fun target gone => dead_update gone
  · rfl
  · rfl

/-- The exit action is not about the thread of the object. -/
theorem Safe.setExitAction (safe : Safe history before) (exit : OnDestruction) :
    Safe (history ++ [.silent]) (before.set object { before.threads object with onExit := exit }) := by
  refine safe.quiet rfl ?_ ?_ ?_ ?_
  · rw [holds_set]
    exact Function.update_eq_self object before.holds
  · exact safe.dead
  · exact fun _ => id
  · exact fun _ => .inl

omit [DecidableEq Object] in
theorem Safe.finish {id : Id} (safe : Safe history before) :
    Safe (history ++ [.finished id])
      { before with finished := Function.update before.finished id true } := by
  refine safe.quiet rfl rfl safe.dead ?_ ?_
  · exact fun _ started => started
  · intro id' done
    change Function.update before.finished id true id' = true at done
    by_cases here : id' = id
    · exact .inr (congrArg _ here.symm)
    · rw [Function.update_of_ne here] at done
      exact .inl done

theorem Safe.start {id : Id} (safe : Safe history before) (dead : before.alive object = false)
    (fresh : before.started id = false) :
    Safe (history ++ [.started id]) { before.construct object { thread := some id } with
      started := Function.update before.started id true } where
  owned := by
    have free : ∀ other, before.holds other ≠ some id := by
      intro other held
      have known := safe.started other id held
      rw [fresh] at known
      contradiction
    rw [ledger_append]
    have holds := holds_construct before object { thread := some id }
    have owned := safe.owned.acquire free (safe.dead object dead)
    exact holds ▸ owned
  dead := by
    intro target gone
    obtain ⟨gone, apart⟩ := dead_update gone
    change (before.construct object { thread := some id }).holds target = none
    rw [holds_construct, Function.update_of_ne apart]
    exact safe.dead target gone
  started := by
    intro target id' held
    show Function.update before.started id true id' = true
    by_cases same : id' = id
    · rw [same, Function.update_self]
    · rw [Function.update_of_ne same]
      change (before.construct object { thread := some id }).holds target = some id' at held
      rw [holds_construct] at held
      by_cases new : target = object
      · rw [new, Function.update_self] at held
        exact absurd (Option.some.inj held).symm same
      · rw [Function.update_of_ne new] at held
        exact safe.started target id' held
  finished := fun id' done => List.mem_append_left _ (safe.finished id' done)

/-- The object that is assigned to takes over the thread of the other one, behind its exit action. -/
theorem Safe.moveAssign (safe : Safe history before) (alive : before.alive self = true)
    (assigned : moveAssign before self other deadlock = some (event, after)) :
    Safe (history ++ [event]) after := by
  obtain ⟨middle, executed, ⟨-, rfl⟩ | ⟨-, empty, rfl⟩⟩ := moveAssign_eq_some assigned
  · exact (safe.exit executed).1
  · obtain ⟨exited, lives⟩ := safe.exit executed
    apply exited.moved empty
    · rw [holds_set, State.leave, holds_set]
    · intro target gone
      refine ⟨gone, ?_⟩
      rintro rfl
      change middle.alive target = false at gone
      rw [lives, alive] at gone
      contradiction
    · rfl
    · rfl

/-- The destructor runs the exit action and ends the lifetime. -/
theorem Safe.destroy (safe : Safe history before)
    (destroyed : destroy before object deadlock = some (event, after)) : Safe (history ++ [event]) after := by
  obtain ⟨exited, middle, executed, ⟨thrown, rfl, rfl⟩ | ⟨-, empty, rfl, rfl⟩⟩ := destroy_eq_some destroyed
  · -- the exit action threw and changed nothing, so the object keeps its thread
    rcases executeExitAction_eq_some executed with
      ⟨-, quiet, -⟩ | ⟨id, -, -, -, -, -, rfl⟩ | ⟨id, -, -, ⟨-, -, ended⟩ | ⟨-, ended⟩⟩
    · rw [thrown] at quiet
      contradiction
    · exact safe.quiet rfl rfl safe.dead (fun _ started => started) fun _ => .inl
    · rw [thrown] at ended
      contradiction
    · rw [thrown] at ended
      contradiction
  · obtain ⟨done, -⟩ := safe.exit executed
    refine ⟨done.owned, ?_, done.started, done.finished⟩
    intro target gone
    by_cases here : target = object
    · rw [here]
      exact empty
    · change Function.update middle.alive object false target = false at gone
      rw [Function.update_of_ne here] at gone
      exact done.dead target gone

theorem Safe.act (safe : Safe history before) (stepped : act before action = some (event, after)) :
    Safe (history ++ [event]) after := by
  cases action with
  | default object =>
      obtain ⟨dead, same⟩ := Option.ite_none_left_eq_some.mp stepped
      cases same
      exact safe.default (Bool.eq_false_iff.mpr dead)
  | start object id =>
      obtain ⟨unused, same⟩ := Option.ite_none_left_eq_some.mp stepped
      rw [Bool.or_eq_true, not_or, Bool.not_eq_true, Bool.not_eq_true] at unused
      cases same
      exact safe.start unused.1 unused.2
  | moveConstruct object other =>
      obtain ⟨places, same⟩ := Option.ite_none_right_eq_some.mp stepped
      rw [Bool.and_eq_true, Bool.not_eq_true'] at places
      cases same
      exact safe.moveConstruct places.2
  | moveAssign self other deadlock =>
      obtain ⟨alive, assigned⟩ := Option.ite_none_right_eq_some.mp stepped
      rw [Bool.and_eq_true] at alive
      exact safe.moveAssign alive.1 assigned
  | setExitAction object exit =>
      obtain ⟨-, same⟩ := Option.ite_none_right_eq_some.mp stepped
      cases same
      exact safe.setExitAction exit
  | join object deadlock =>
      obtain ⟨-, joined⟩ := Option.ite_none_right_eq_some.mp stepped
      rcases join_eq_some joined with ⟨rfl, rfl, -⟩ | ⟨id, held, -, rfl, rfl⟩
      · exact safe.unchanged rfl
      · exact safe.ends held (.inl rfl)
  | detach object =>
      obtain ⟨-, detached⟩ := Option.ite_none_right_eq_some.mp stepped
      rcases detach_eq_some detached with ⟨rfl, rfl, -⟩ | ⟨id, held, rfl, rfl⟩
      · exact safe.unchanged rfl
      · exact safe.ends held (.inr rfl)
  | destroy object deadlock =>
      obtain ⟨-, destroyed⟩ := Option.ite_none_right_eq_some.mp stepped
      exact safe.destroy destroyed
  | finish id =>
      obtain ⟨-, same⟩ := Option.ite_none_right_eq_some.mp stepped
      cases same
      exact safe.finish

theorem run_safe {state : State Object Id} (run : (system Object Id).Run {} history state) :
    Safe history state := by
  apply run.invariant Safe
  · refine ⟨Ownership.owned_initial, fun _ _ => rfl, ?_, ?_⟩
    · intro object id held
      contradiction
    · intro id done
      contradiction
  · intro history before action event after safe stepped
    exact safe.act (Option.ite_none_right_eq_some.mp stepped).2

omit [DecidableEq Id] in
/-- An exit action joins only a thread that has ended its work. -/
theorem exit_joined {id : Id}
    (executed : executeExitAction before object deadlock = some (.joined id, after)) :
    before.finished id = true := by
  rcases executeExitAction_eq_some executed with
    ⟨-, quiet, -⟩ | ⟨found, -, -, -, -, thrown, -⟩ | ⟨found, -, -, ⟨-, done, ended⟩ | ⟨-, ended⟩⟩
  · contradiction
  · contradiction
  · cases ended
    exact done
  · contradiction

/-- A thread is joined only where it has ended its work. -/
theorem act_joined {id : Id} (stepped : act before action = some (.joined id, after)) :
    before.finished id = true := by
  cases action with
  | moveAssign self other deadlock =>
      obtain ⟨-, assigned⟩ := Option.ite_none_right_eq_some.mp stepped
      obtain ⟨middle, executed, -⟩ := moveAssign_eq_some assigned
      exact exit_joined executed
  | destroy object deadlock =>
      obtain ⟨-, destroyed⟩ := Option.ite_none_right_eq_some.mp stepped
      obtain ⟨exited, middle, executed, ⟨-, ended, -⟩ | ⟨-, -, ended, -⟩⟩ := destroy_eq_some destroyed
      · contradiction
      · rw [← ended] at executed
        exact exit_joined executed
  | join object deadlock =>
      obtain ⟨-, joined⟩ := Option.ite_none_right_eq_some.mp stepped
      rcases join_eq_some joined with ⟨quiet, -, -⟩ | ⟨found, -, done, same, -⟩
      · contradiction
      · cases same
        exact done
  | detach object =>
      obtain ⟨-, detached⟩ := Option.ite_none_right_eq_some.mp stepped
      rcases detach_eq_some detached with ⟨quiet, -, -⟩ | ⟨found, -, same, -⟩
      · contradiction
      · contradiction
  | default object => simp [act] at stepped
  | start object other => simp [act] at stepped
  | moveConstruct object other => simp [act] at stepped
  | setExitAction object exit => simp [act] at stepped
  | finish other => simp [act] at stepped

/-- The object that ended the program: its destructor was to join a thread that still works. -/
def State.Stuck (state : State Object Id) (object : Object) : Prop :=
  ∃ id, state.holds object = some id ∧ (state.threads object).onExit = .join ∧ state.finished id = false

/-- The program is terminated only in a destructor that would be a deadlock. -/
theorem act_terminated (stepped : act before action = some (.terminated, after)) :
    after.running = false ∧ ∃ object, action = .destroy object true ∧ after.Stuck object := by
  have ends : ∀ {target : Object} {deadlock : Bool} {middle : State Object Id},
      executeExitAction before target deadlock ≠ some (.terminated, middle) := by
    intro target deadlock middle executed
    rcases executeExitAction_eq_some executed with
      ⟨-, quiet, -⟩ | ⟨found, -, -, -, -, thrown, -⟩ | ⟨found, -, -, ⟨-, -, ended⟩ | ⟨-, ended⟩⟩ <;>
      contradiction
  cases action with
  | moveAssign self other deadlock =>
      obtain ⟨-, assigned⟩ := Option.ite_none_right_eq_some.mp stepped
      obtain ⟨middle, executed, -⟩ := moveAssign_eq_some assigned
      exact absurd executed ends
  | destroy object deadlock =>
      obtain ⟨-, destroyed⟩ := Option.ite_none_right_eq_some.mp stepped
      obtain ⟨exited, middle, executed, ⟨thrown, -, rfl⟩ | ⟨-, -, ended, -⟩⟩ := destroy_eq_some destroyed
      · rcases executeExitAction_eq_some executed with
          ⟨-, quiet, -⟩ | ⟨id, held, joins, works, rfl, -, rfl⟩ | ⟨id, -, -, ⟨-, -, ended⟩ | ⟨-, ended⟩⟩
        · rw [thrown] at quiet
          contradiction
        · exact ⟨rfl, object, rfl, id, held, joins, works⟩
        · rw [thrown] at ended
          contradiction
        · rw [thrown] at ended
          contradiction
      · rw [← ended] at executed
        exact absurd executed ends
  | join object deadlock =>
      obtain ⟨-, joined⟩ := Option.ite_none_right_eq_some.mp stepped
      rcases join_eq_some joined with ⟨quiet, -, -⟩ | ⟨found, -, -, same, -⟩ <;> contradiction
  | detach object =>
      obtain ⟨-, detached⟩ := Option.ite_none_right_eq_some.mp stepped
      rcases detach_eq_some detached with ⟨quiet, -, -⟩ | ⟨found, -, same, -⟩ <;> contradiction
  | default object => simp [act] at stepped
  | start object other => simp [act] at stepped
  | moveConstruct object other => simp [act] at stepped
  | setExitAction object exit => simp [act] at stepped
  | finish other => simp [act] at stepped

end Steps

section Runs

variable {history : List (Event Id)} {state : State Object Id} {actions : List (Action Object Id)}

omit [DecidableEq Object] [DecidableEq Id] in
/-- The program asks for no thread to be detached. -/
def Action.keepsJoining : Action Object Id → Bool
  | .setExitAction _ .detach => false
  | .detach _ => false
  | _ => true

/-- The exit action of each object joins. -/
def State.Joins (state : State Object Id) : Prop := ∀ object, (state.threads object).onExit = .join

omit [DecidableEq Id] in
theorem State.Joins.set {thread : Thread Id} {object : Object} (joins : state.Joins)
    (same : thread.onExit = .join) : (state.set object thread).Joins := by
  intro target
  show (Function.update state.threads object thread target).onExit = .join
  by_cases here : target = object
  · rw [here, Function.update_self]
    exact same
  · rw [Function.update_of_ne here]
    exact joins target

omit [DecidableEq Id] in
/-- Such an exit action detaches nothing. -/
theorem State.Joins.exit {object : Object} {deadlock : Bool} {event : Event Id} {after : State Object Id}
    (joins : state.Joins) (executed : executeExitAction state object deadlock = some (event, after)) :
    after.Joins ∧ ∀ id, event ≠ .detached id := by
  rcases executeExitAction_eq_some executed with
    ⟨-, rfl, rfl⟩ | ⟨found, -, -, -, -, rfl, rfl⟩ | ⟨found, -, rfl, joined | detached⟩
  · exact ⟨joins, fun _ => nofun⟩
  · exact ⟨joins, fun _ => nofun⟩
  · rw [joined.2.2]
    exact ⟨joins.set (joins object), fun _ => nofun⟩
  · rw [joins object] at detached
    cases detached.1

/-- Without a request to detach, each step keeps the exit actions and detaches nothing. -/
theorem joins_act {event : Event Id} {after : State Object Id} {action : Action Object Id}
    (joins : state.Joins) (keeps : action.keepsJoining = true)
    (stepped : act state action = some (event, after)) : after.Joins ∧ ∀ id, event ≠ .detached id := by
  cases action with
  | default object =>
      obtain ⟨-, same⟩ := Option.ite_none_left_eq_some.mp stepped
      cases same
      exact ⟨joins.set rfl, fun _ => nofun⟩
  | start object id =>
      obtain ⟨-, same⟩ := Option.ite_none_left_eq_some.mp stepped
      cases same
      exact ⟨joins.set rfl, fun _ => nofun⟩
  | moveConstruct object other =>
      obtain ⟨-, same⟩ := Option.ite_none_right_eq_some.mp stepped
      cases same
      exact ⟨State.Joins.set (joins.set (joins other)) (joins other), fun _ => nofun⟩
  | moveAssign self other deadlock =>
      obtain ⟨-, assigned⟩ := Option.ite_none_right_eq_some.mp stepped
      obtain ⟨middle, executed, same⟩ := moveAssign_eq_some assigned
      obtain ⟨joins', undetached⟩ := joins.exit executed
      have left : (middle.leave other).Joins := joins'.set (joins' other)
      rcases same with ⟨-, rfl⟩ | ⟨-, -, rfl⟩
      · exact ⟨joins', undetached⟩
      · exact ⟨left.set (left other), undetached⟩
  | setExitAction object exit =>
      obtain ⟨-, same⟩ := Option.ite_none_right_eq_some.mp stepped
      cases same
      cases exit with
      | join => exact ⟨joins.set rfl, fun _ => nofun⟩
      | detach => contradiction
  | join object deadlock =>
      obtain ⟨-, joined⟩ := Option.ite_none_right_eq_some.mp stepped
      rcases join_eq_some joined with ⟨rfl, rfl, -⟩ | ⟨found, -, -, rfl, rfl⟩
      · exact ⟨joins, fun _ => nofun⟩
      · exact ⟨joins.set (joins object), fun _ => nofun⟩
  | detach object => contradiction
  | destroy object deadlock =>
      obtain ⟨-, destroyed⟩ := Option.ite_none_right_eq_some.mp stepped
      obtain ⟨exited, middle, executed, same⟩ := destroy_eq_some destroyed
      obtain ⟨joins', undetached⟩ := joins.exit executed
      rcases same with ⟨-, rfl, rfl⟩ | ⟨-, -, rfl, rfl⟩
      · exact ⟨joins', fun _ => nofun⟩
      · exact ⟨joins', undetached⟩
  | finish id =>
      obtain ⟨-, same⟩ := Option.ite_none_right_eq_some.mp stepped
      cases same
      exact ⟨joins, fun _ => nofun⟩

/-- Where no object is to detach, nothing is detached. -/
theorem execute_joins (keeps : ∀ action ∈ actions, action.keepsJoining = true)
    (executed : (system Object Id).execute {} actions = some (history, state)) (id : Id) :
    .detached id ∉ history := by
  let Undetached (history : List (Event Id)) (state : State Object Id) : Prop :=
    state.Joins ∧ ∀ id, .detached id ∉ history
  have kept : Undetached ([] ++ history) state := by
    refine StepSystem.execute_invariant Undetached ?_ keeps ?_ executed
    · intro history before action event after keeps undetached stepped
      obtain ⟨joins, unseen⟩ := joins_act undetached.1 keeps (Option.ite_none_right_eq_some.mp stepped).2
      refine ⟨joins, fun id member => ?_⟩
      rcases List.mem_append.mp member with earlier | last
      · exact undetached.2 id earlier
      · exact unseen id (List.mem_singleton.mp last).symm
    · exact ⟨fun _ => rfl, fun _ => List.not_mem_nil⟩
  exact kept.2 id

/-- A program that was terminated stopped in the destructor that did it. -/
theorem execute_terminated (executed : (system Object Id).execute {} actions = some (history, state))
    (terminated : .terminated ∈ history) :
    ∃ object, .destroy object true ∈ actions ∧ state.Stuck object := by
  let Stopped (history : List (Event Id)) (state : State Object Id) : Prop :=
    .terminated ∈ history → state.running = false ∧
      ∃ object, .destroy object true ∈ actions ∧ state.Stuck object
  have stopped : Stopped ([] ++ history) state := by
    refine StepSystem.execute_invariant Stopped ?_ (fun action member => member) ?_ executed
    · intro history before action event after member stopped stepped here
      obtain ⟨running, acted⟩ := Option.ite_none_right_eq_some.mp stepped
      rcases List.mem_append.mp here with earlier | last
      · rw [(stopped earlier).1] at running
        contradiction
      · rw [← List.mem_singleton.mp last] at acted
        obtain ⟨ended, object, rfl, stuck⟩ := act_terminated acted
        exact ⟨ended, object, member, stuck⟩
    · intro here
      contradiction
  exact (stopped terminated).2

omit [DecidableEq Object] in
/-- The ledger counts what the history does. -/
theorem count_ledger {event : Event Id} {owned : Ownership.Event Id}
    (seen : ∀ other : Event Id, other.ownership = some owned ↔ other = event) (history : List (Event Id)) :
    (ledger history).count owned = history.count event := by
  rw [ledger, List.count, List.countP_filterMap, List.count]
  apply List.countP_congr
  intro other _
  rw [beq_iff_eq, ← seen other]
  cases other.ownership with
  | none => simp
  | some found => simp

omit [DecidableEq Object] in
/-- A thread is joined or detached once for each time that it is started, unless it still has an object. -/
theorem Safe.counts (safe : Safe history state) (id : Id) :
    ∃ held : Bool, (held = true ↔ ∃ object, state.holds object = some id) ∧
      history.count (.started id) =
        history.count (.joined id) + history.count (.detached id) + held.toNat := by
  obtain ⟨held, tracked, holder⟩ := safe.owned.tracked id
  refine ⟨held, holder, ?_⟩
  have started : ∀ other : Event Id, other.ownership = some (.acquired id) ↔ other = .started id := by
    intro other
    cases other <;> simp [Event.ownership]
  have joined : ∀ other : Event Id, other.ownership = some (.closed id) ↔ other = .joined id := by
    intro other
    cases other <;> simp [Event.ownership]
  have detached : ∀ other : Event Id, other.ownership = some (.released id) ↔ other = .detached id := by
    intro other
    cases other <;> simp [Event.ownership]
  rw [← count_ledger started, ← count_ledger joined, ← count_ledger detached]
  exact Ownership.track_counts tracked

/-- In every run each thread is held by one living object at most, and it is joined or detached exactly once
unless an object still holds it. It is joined only behind the end of its work. The objects terminate no
program but where a destructor has to join a thread that still works and finds a deadlock. Where no object is
to detach, a thread that no object holds has ended its work: none outlives the objects. -/
theorem threads_end (executed : (system Object Id).execute {} actions = some (history, state)) :
    (∀ first second id, state.holds first = some id → state.holds second = some id → first = second) ∧
      (∀ object, state.alive object = false → state.holds object = none) ∧
      (∀ id, ∃ held : Bool, (held = true ↔ ∃ object, state.holds object = some id) ∧
        history.count (.started id) =
          history.count (.joined id) + history.count (.detached id) + held.toNat) ∧
      (∀ earlier id later, history = earlier ++ .joined id :: later → .finished id ∈ earlier) ∧
      (.terminated ∈ history → ∃ object, .destroy object true ∈ actions ∧ state.Stuck object) ∧
      ((∀ action ∈ actions, action.keepsJoining = true) → ∀ id, .started id ∈ history →
        (∀ object, state.holds object ≠ some id) → .finished id ∈ history) := by
  have run : (system Object Id).Run {} history state := StepSystem.run_of_execute actions executed
  have safe := run_safe run
  have joined : ∀ earlier id later, history = earlier ++ .joined id :: later → .finished id ∈ earlier := by
    intro earlier id later parts
    obtain ⟨before, action, after, reached, stepped⟩ := run.split parts
    exact (run_safe reached).finished id (act_joined (Option.ite_none_right_eq_some.mp stepped).2)
  refine ⟨safe.owned.unique, safe.dead, safe.counts, joined, execute_terminated executed, ?_⟩
  intro keeps id started unheld
  obtain ⟨held, holder, balance⟩ := safe.counts id
  have undetached := List.count_eq_zero.mpr (execute_joins keeps executed id)
  have free : held = false := by
    rw [← Bool.not_eq_true, holder]
    rintro ⟨object, holds⟩
    exact unheld object holds
  have once := List.count_pos_iff.mpr started
  rw [undetached, free] at balance
  have ended : 0 < history.count (.joined id) := by
    change _ = _ + 0 + 0 at balance
    omega
  obtain ⟨earlier, later, parts⟩ := List.append_of_mem (List.count_pos_iff.mp ended)
  rw [parts]
  exact List.mem_append_left _ (joined earlier id later parts)

/-- A thread is moved to another object, ends its work, and is joined there. -/
def movedThread : List (Action Bool Nat) :=
  [.start true 7, .default false, .moveAssign false true false, .finish 7, .destroy false false,
    .destroy true false]

theorem threads_end_moved :
    ∃ history state, (system Bool Nat).execute {} movedThread = some (history, state) ∧
      history.count (.joined 7) = 1 ∧ .finished 7 ∈ history ∧ state.alive true = false ∧
      state.holds true = none := by
  have executed : (system Bool Nat).execute {} movedThread = some (_, _) := rfl
  obtain ⟨-, dead, -, -, -, ends⟩ := threads_end executed
  have keeps : ∀ action ∈ movedThread, action.keepsJoining = true := by decide
  refine ⟨_, _, executed, by decide, ends keeps 7 (by decide) ?_, rfl, dead true rfl⟩
  intro object held
  cases object <;> contradiction

end Runs

end Thread

end MartCommon.Mt
