import MartCommon.Library.Ownership
import MartCommon.Library.StepSystem
import MartCommon.Netlib.RaiiSocket

namespace MartCommon.Netlib.RaiiSocket

open Library PortLayer

/-- A run records the calls of the port layer, and the handles that socket objects take over from
the rest of the program or give to it. -/
inductive Entry (Address : Type*) where
  | call (call : Call Address)
  | adopted (handle : Handle)
  | released (handle : Handle)

/-- `loose` marks the open handles that no socket object owns. -/
structure State (Object Address : Type*) where
  os : Os Address := fun _ => none
  alive : Object → Bool := fun _ => false
  sockets : Object → RaiiSocket := fun _ => {}
  loose : Handle → Bool := fun _ => false

/-- An operation on socket objects with the answers of the operating system, or a change of the
open handles by the rest of the program. -/
inductive Action (Object : Type*) where
  | default (object : Object)
  | adopt (object : Object) (handle : Handle) (blocking : ErrorCode)
  | openSocket (object : Object) (answer : ReturnValue Handle) (blocking : ErrorCode)
  | accept (object listener : Object) (answer : ReturnValue Handle) (blocking : ErrorCode)
  | moveConstruct (object other : Object)
  | moveAssign (self other : Object) (answer : CloseAnswer)
  | close (object : Object) (answer : CloseAnswer)
  | release (object : Object)
  | destroy (object : Object) (answer : CloseAnswer)
  | opensElsewhere (handle : Handle)
  | closesElsewhere (handle : Handle)

/-- The same operation on renamed objects. -/
def Action.map {Object Object' : Type*} (rename : Object → Object') : Action Object → Action Object'
  | .default object => .default (rename object)
  | .adopt object handle blocking => .adopt (rename object) handle blocking
  | .openSocket object answer blocking => .openSocket (rename object) answer blocking
  | .accept object listener answer blocking =>
      .accept (rename object) (rename listener) answer blocking
  | .moveConstruct object other => .moveConstruct (rename object) (rename other)
  | .moveAssign self other answer => .moveAssign (rename self) (rename other) answer
  | .close object answer => .close (rename object) answer
  | .release object => .release (rename object)
  | .destroy object answer => .destroy (rename object) answer
  | .opensElsewhere handle => .opensElsewhere handle
  | .closesElsewhere handle => .closesElsewhere handle

variable {Object Address : Type*} [DecidableEq Object]

namespace State

/-- The operating system answers the calls that led to the new sockets. -/
def perform (state : State Object Address) (sockets : Object → RaiiSocket)
    (calls : List (Call Address)) : Option (List (Entry Address) × State Object Address) :=
  match state.os.run calls with
  | none => none
  | some os => some (calls.map .call, { state with os := os, sockets := sockets })

def construct (state : State Object Address) (object : Object) (socket : RaiiSocket)
    (calls : List (Call Address)) : Option (List (Entry Address) × State Object Address) :=
  if state.alive object then none
  else
    { state with alive := Function.update state.alive object true }.perform
      (Function.update state.sockets object socket) calls

/-- A handle that stays open after a failed call to close it has no owner. -/
def abandon (state : State Object Address) (handle : Handle) (answer : CloseAnswer) :
    State Object Address :=
  if handle ≠ .invalid ∧ answer.code.success = false ∧ answer.stillOpen = true then
    { state with loose := Function.update state.loose handle true }
  else state

end State

def step (state : State Object Address) :
    Action Object → Option (List (Entry Address) × State Object Address)
  | .default object => state.construct object {} []
  | .adopt object handle blocking =>
      if handle = .invalid ∨ state.loose handle = true then
        let (socket, calls) := ofHandle handle blocking
        match { state with loose := Function.update state.loose handle false }.construct object
          socket calls with
        | none => none
        | some (entries, after) => some (.adopted handle :: entries, after)
      else none
  | .openSocket object answer blocking =>
      let (socket, calls) := openSocket answer blocking
      state.construct object socket calls
  | .accept object listener answer blocking =>
      if state.alive listener then
        let (socket, calls) := (state.sockets listener).accept answer blocking
        state.construct object socket calls
      else none
  | .moveConstruct object other =>
      if state.alive other then
        let (socket, left) := moveConstruct (state.sockets other)
        { state with sockets := Function.update state.sockets other left }.construct object socket []
      else none
  | .moveAssign self other answer =>
      if state.alive self ∧ state.alive other then
        let (sockets, calls) := moveAssign state.sockets self other answer
        (state.abandon (state.sockets self).handle answer).perform sockets calls
      else none
  | .close object answer =>
      if state.alive object then
        let (socket, calls) := (state.sockets object).close answer
        (state.abandon (state.sockets object).handle answer).perform
          (Function.update state.sockets object socket) calls
      else none
  | .release object =>
      if state.alive object then
        let (handle, socket) := (state.sockets object).release
        some ([.released handle], { state with
          sockets := Function.update state.sockets object socket
          loose := if handle = .invalid then state.loose
            else Function.update state.loose handle true })
      else none
  | .destroy object answer =>
      if state.alive object then
        let (socket, calls) := (state.sockets object).close answer
        { state.abandon (state.sockets object).handle answer with
          alive := Function.update state.alive object false }.perform
            (Function.update state.sockets object socket) calls
      else none
  | .opensElsewhere handle =>
      match state.os.create handle with
      | none => none
      | some os => some ([], { state with
          os := os
          loose := Function.update state.loose handle true })
  | .closesElsewhere handle =>
      if state.loose handle then
        some ([], { state with
          os := Function.update state.os handle none
          loose := Function.update state.loose handle false })
      else none

def system (Object Address : Type*) [DecidableEq Object] :
    StepSystem (State Object Address) (Action Object) (List (Entry Address)) := ⟨step⟩

/-- What an entry means for the ownership of valid handles. -/
def Entry.ownership : Entry Address → Option (Ownership.Event Handle)
  | .call (.socket (.ok handle)) => some (.acquired handle)
  | .call (.accept _ (.ok handle)) => some (.acquired handle)
  | .call (.closeSocket handle _) => if handle = .invalid then none else some (.closed handle)
  | .call _ => none
  | .adopted handle => if handle = .invalid then none else some (.acquired handle)
  | .released handle => if handle = .invalid then none else some (.released handle)

/-- The ownership events of a history, oldest first. -/
def ledger (history : List (List (Entry Address))) : List (Ownership.Event Handle) :=
  history.flatten.filterMap Entry.ownership

/-- The valid handle in an object. -/
def State.holds (state : State Object Address) : Object → Option Handle :=
  owned ∘ RaiiSocket.handle ∘ state.sockets

omit [DecidableEq Object] in
theorem ledger_append (history : List (List (Entry Address))) (entries : List (Entry Address)) :
    ledger (history ++ [entries]) = ledger history ++ entries.filterMap Entry.ownership := by
  simp [ledger]

end MartCommon.Netlib.RaiiSocket
