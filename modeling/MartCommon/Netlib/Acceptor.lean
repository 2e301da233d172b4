import MartCommon.Netlib.Ip
import MartCommon.Netlib.RaiiSocketSystem

namespace MartCommon.Netlib.Tcp

open Library PortLayer

/-- `tcp::endpoint` -/
abbrev Endpoint := Ip.BasicEndpointV4 .tcp

/-- The address and the port in a `sockaddr_in`. -/
structure SockaddrIn where
  address : NetInt 32
  port : NetInt 16
  deriving DecidableEq, Repr

/-- `toSockAddr_in()` -/
def toSockAddrIn (endpoint : Endpoint) : SockaddrIn :=
  ⟨endpoint.address.inNetOrder, endpoint.port.p⟩

/-- `basic_endpoint_v4_base( const abi_endpoint_type& )` -/
def ofSockAddrIn (native : SockaddrIn) : Endpoint :=
  ⟨⟨⟨native.address⟩, ⟨native.port⟩, true⟩⟩

/-- The exception `generic_nw_error` with the parts of its message. -/
structure GenericNwError where
  code : ErrorCode
  text : Text
  endpoint : Option Endpoint
  deriving DecidableEq, Repr

/-- Socket objects are the members `_socket_handle` of acceptors, or belong to the rest of the
program. -/
abbrev Member (Object Other : Type*) := Object ⊕ Other

/-- The acceptors in memory. The field `_socket_handle` of an acceptor is a socket object of the
base. -/
structure State (Object Other : Type*) where
  base : RaiiSocket.State (Member Object Other) SockaddrIn := {}
  epLocal : Object → Endpoint := fun _ => {}
  state : Object → Stage := fun _ => .opened
  running : Bool := true

/-- How a member function ends. A failed assertion and an exception out of a `noexcept` function
end the program. -/
inductive Outcome (Object Other : Type*) where
  | returned
  | failed
  | accepted (socket : Other) (epLocal epRemote : Endpoint)
  | thrown (error : GenericNwError)
  | terminated
  | assertionFailed (object : Object)

/-- The answers to the calls that open a socket, and to the call that closes it again. -/
structure OpenAnswers where
  socket : ReturnValue Handle
  blocking : ErrorCode
  close : CloseAnswer

/-- The answers to the calls of `accept` and `try_accept`. -/
structure AcceptAnswers where
  setBlocking : ErrorCode
  accept : ReturnValue Handle
  acceptBlocking : ErrorCode
  remote : SockaddrIn
  getsockname : ReturnValue SockaddrIn
  opened : OpenAnswers

variable {Object Other : Type*} [DecidableEq Object] [DecidableEq Other]

namespace State

/-- Operations of the socket objects, one after the other. -/
def perform (state : State Object Other)
    (actions : List (RaiiSocket.Action (Member Object Other))) : Option (State Object Other) :=
  ((RaiiSocket.system (Member Object Other) SockaddrIn).execute state.base actions).map
    fun result => { state with base := result.2 }

/-- A call of the port layer that is not about the lifetime of a handle. -/
def call (state : State Object Other) (calls : List (Call SockaddrIn)) :
    Option (State Object Other) :=
  (state.base.os.run calls).map fun os => { state with base := { state.base with os := os } }

/-- The member `_socket_handle` of an acceptor. -/
def socketHandle (state : State Object Other) (object : Object) : RaiiSocket :=
  state.base.sockets (.inl object)

def setEpLocal (state : State Object Other) (object : Object) (ep : Endpoint) : State Object Other :=
  { state with epLocal := Function.update state.epLocal object ep }

def setState (state : State Object Other) (object : Object) (stage : Stage) : State Object Other :=
  { state with state := Function.update state.state object stage }

/-- `_socket_handle.set_blocking( shouldBlock )` -/
def setBlocking (state : State Object Other) (object : Object) (shouldBlock : Bool)
    (answer : ErrorCode) : State Object Other :=
  let socket : RaiiSocket × List (Call SockaddrIn) :=
    (state.socketHandle object).setBlocking shouldBlock answer
  { state with base := { state.base with
      sockets := Function.update state.base.sockets (.inl object) socket.1 } }

end State

/-- `Acceptor()` throws when it cannot open a socket, and then its member is destroyed. -/
def construct (state : State Object Other) (object : Object) (answers : OpenAnswers) :
    Option (Outcome Object Other × State Object Other) := do
  let opened ← state.perform [.openSocket (.inl object) answers.socket answers.blocking]
  let opened := (opened.setEpLocal object {}).setState object .opened
  if (opened.socketHandle object).isValid then
    return (.returned, opened)
  else
    let destroyed ← opened.perform [.destroy (.inl object) answers.close]
    return (.thrown ⟨answers.socket.errorCode, ascii "Could not create tcp acceptor.", none⟩,
      destroyed)

/-- `bind` and `try_bind` differ in what they do with an error. -/
def bindOr (onError : ErrorCode → Outcome Object Other) (state : State Object Other)
    (object : Object) (ep : Endpoint) (answer : ErrorCode) :
    Option (Outcome Object Other × State Object Other) :=
  if state.state object ≠ .opened then
    some (.assertionFailed object, { state with running := false })
  else do
    let called ← state.call [.bind (state.socketHandle object).handle (toSockAddrIn ep) answer]
    if answer.success then
      return (.returned, (called.setEpLocal object ep).setState object .bound)
    else
      return (onError answer, called)

def bind (state : State Object Other) (object : Object) (ep : Endpoint) (answer : ErrorCode) :
    Option (Outcome Object Other × State Object Other) :=
  bindOr (fun code => .thrown ⟨code, ascii "Could not bind tcp acceptor to address ", some ep⟩)
    state object ep answer

def tryBind (state : State Object Other) (object : Object) (ep : Endpoint) (answer : ErrorCode) :
    Option (Outcome Object Other × State Object Other) :=
  bindOr (fun _ => .failed) state object ep answer

/-- `listen` and `try_listen` differ in what they do with an error. -/
def listenOr (onError : ErrorCode → Outcome Object Other) (state : State Object Other)
    (object : Object) (backlog : Int) (answer : ErrorCode) :
    Option (Outcome Object Other × State Object Other) :=
  if state.state object ≠ .bound then
    some (.assertionFailed object, { state with running := false })
  else do
    let called ← state.call [.listen (state.socketHandle object).handle backlog answer]
    if answer.success then
      return (.returned, called.setState object .listening)
    else
      return (onError answer, called)

def listen (state : State Object Other) (object : Object) (backlog : Int) (answer : ErrorCode) :
    Option (Outcome Object Other × State Object Other) :=
  listenOr (fun code => .thrown ⟨code, ascii "Tcp acceptor could not start to listen on address ",
    some (state.epLocal object)⟩) state object backlog answer

def tryListen (state : State Object Other) (object : Object) (backlog : Int) (answer : ErrorCode) :
    Option (Outcome Object Other × State Object Other) :=
  listenOr (fun _ => .failed) state object backlog answer

/-- An exception leaves a delegating constructor after the object was complete, so that its
destructor runs. -/
def unwind (object : Object) (answer : CloseAnswer)
    (result : Outcome Object Other × State Object Other) :
    Option (Outcome Object Other × State Object Other) :=
  match result with
  | (.thrown error, state) => do
      let destroyed ← state.perform [.destroy (.inl object) answer]
      return (.thrown error, destroyed)
  | other => some other

/-- `Acceptor( endpoint, int )` -/
def constructEndpoint (state : State Object Other) (object : Object) (ep : Endpoint) (backlog : Int)
    (answers : OpenAnswers) (bindAnswer listenAnswer : ErrorCode) :
    Option (Outcome Object Other × State Object Other) := do
  match ← construct state object answers with
  | (.returned, opened) =>
      match ← bind opened object ep bindAnswer with
      | (.returned, bound) =>
          let listening ← listen bound object backlog listenAnswer
          unwind object answers.close listening
      | result => unwind object answers.close result
  | result => return result

/-- The part that `accept` and `try_accept` share. The local `sock` and the returned `result` are
socket objects of the rest of the program. -/
def acceptSocket (state : State Object Other) (object : Object) (sock result : Other)
    (answers : AcceptAnswers) : Option (Outcome Object Other × State Object Other) := do
  let accepted ← state.perform
    [.accept (.inr sock) (.inl object) answers.accept answers.acceptBlocking]
  match (accepted.base.sockets (.inr sock)).isValid, answers.getsockname with
  | true, .ok local_ =>
      let returned ← accepted.perform
        [.moveConstruct (.inr result) (.inr sock), .destroy (.inr sock) answers.opened.close]
      return (.accepted result (ofSockAddrIn local_) (ofSockAddrIn answers.remote), returned)
  | _, _ =>
      let returned ← accepted.perform
        [.openSocket (.inr result) answers.opened.socket answers.opened.blocking,
          .destroy (.inr sock) answers.opened.close]
      return (.accepted result {} {}, returned)

/-- The timeouts that `accept` sets first do not matter for the acceptor. -/
def accept (state : State Object Other) (object : Object) (sock result : Other)
    (answers : AcceptAnswers) : Option (Outcome Object Other × State Object Other) :=
  acceptSocket (state.setBlocking object true answers.setBlocking) object sock result answers

def tryAccept (state : State Object Other) (object : Object) (sock result : Other)
    (answers : AcceptAnswers) : Option (Outcome Object Other × State Object Other) :=
  if state.state object ≠ .listening then
    some (.assertionFailed object, { state with running := false })
  else
    acceptSocket (state.setBlocking object false answers.setBlocking) object sock result answers

/-- `operator=( Acceptor&& )` leaves `_state` of both acceptors as it is. -/
def moveAssign (state : State Object Other) (self other : Object) (answer : CloseAnswer) :
    Option (Outcome Object Other × State Object Other) := do
  let moved ← state.perform [.moveAssign (.inl self) (.inl other) answer]
  return (.returned, (moved.setEpLocal self (moved.epLocal other)).setEpLocal other {})

/-- `Acceptor( Acceptor&& )` assigns a temporary `Acceptor{}` to the other acceptor. The temporary
is not in the hands of the program, so that its fields are not part of the state. -/
def moveConstruct (state : State Object Other) (object other : Object) (temporary : Other)
    (answers : OpenAnswers) (closeOther : CloseAnswer) :
    Option (Outcome Object Other × State Object Other) := do
  let moved ← state.perform [.moveConstruct (.inl object) (.inl other)]
  let moved := (moved.setEpLocal object (moved.epLocal other)).setState object (moved.state other)
  let opened ← moved.perform [.openSocket (.inr temporary) answers.socket answers.blocking]
  if (opened.base.sockets (.inr temporary)).isValid then
    let assigned ← opened.perform [.moveAssign (.inl other) (.inr temporary) closeOther,
      .destroy (.inr temporary) answers.close]
    return (.returned, assigned.setEpLocal other {})
  else
    return (.terminated, { opened with running := false })

/-- An operation on acceptors, or one on socket objects and handles of the rest of the program. -/
inductive Action (Object Other : Type*) where
  | construct (object : Object) (answers : OpenAnswers)
  | constructEndpoint (object : Object) (ep : Endpoint) (backlog : Int) (answers : OpenAnswers)
      (bind listen : ErrorCode)
  | bind (object : Object) (ep : Endpoint) (answer : ErrorCode)
  | tryBind (object : Object) (ep : Endpoint) (answer : ErrorCode)
  | listen (object : Object) (backlog : Int) (answer : ErrorCode)
  | tryListen (object : Object) (backlog : Int) (answer : ErrorCode)
  | accept (object : Object) (sock result : Other) (answers : AcceptAnswers)
  | tryAccept (object : Object) (sock result : Other) (answers : AcceptAnswers)
  | moveConstruct (object other : Object) (temporary : Other) (answers : OpenAnswers)
      (closeOther : CloseAnswer)
  | moveAssign (self other : Object) (answer : CloseAnswer)
  | destroy (object : Object) (answer : CloseAnswer)
  | elsewhere (action : RaiiSocket.Action Other)

namespace Action

/-- The acceptor of a member function. -/
def receiver : Action Object Other → Option Object
  | .bind object _ _ => some object
  | .tryBind object _ _ => some object
  | .listen object _ _ => some object
  | .tryListen object _ _ => some object
  | .accept object _ _ _ => some object
  | .tryAccept object _ _ _ => some object
  | _ => none

end Action

/-- The program calls member functions within the lifetime of an acceptor only. The lifetimes of
the objects in the other operations are those of their members. -/
def step (state : State Object Other) (action : Action Object Other) :
    Option (Outcome Object Other × State Object Other) :=
  if state.running && (action.receiver.all fun object => state.base.alive (.inl object)) then
    match action with
    | .construct object answers => construct state object answers
    | .constructEndpoint object ep backlog answers bindAnswer listenAnswer =>
        constructEndpoint state object ep backlog answers bindAnswer listenAnswer
    | .bind object ep answer => bind state object ep answer
    | .tryBind object ep answer => tryBind state object ep answer
    | .listen object backlog answer => listen state object backlog answer
    | .tryListen object backlog answer => tryListen state object backlog answer
    | .accept object sock result answers => accept state object sock result answers
    | .tryAccept object sock result answers => tryAccept state object sock result answers
    | .moveConstruct object other temporary answers closeOther =>
        moveConstruct state object other temporary answers closeOther
    | .moveAssign self other answer => moveAssign state self other answer
    | .destroy object answer =>
        (state.perform [.destroy (.inl object) answer]).map fun after => (.returned, after)
    | .elsewhere action =>
        (state.perform [action.map .inr]).map fun after => (.returned, after)
  else none

def system (Object Other : Type*) [DecidableEq Object] [DecidableEq Other] :
    StepSystem (State Object Other) (Action Object Other) (Outcome Object Other) := ⟨step⟩

end MartCommon.Netlib.Tcp
