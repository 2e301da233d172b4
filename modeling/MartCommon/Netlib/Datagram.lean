import MartCommon.Netlib.DgramSocket
import MartCommon.Netlib.RaiiSocketFrame

namespace MartCommon.Netlib.Datagram

open Library PortLayer

/-- What `DgramSocket` uses of its template argument. A move leaves `movedFrom` of an endpoint. -/
structure EndpointType (Endpoint Address : Type*) where
  empty : Endpoint
  toSockAddr : Endpoint → Address
  toStringEx : Endpoint → Text
  movedFrom : Endpoint → Endpoint

/-- The sockets in memory. The field `_socket` of a `DgramSocket` is a socket object of the base, and
the operating system remembers the address that a handle was connected to last. -/
structure State (Object Endpoint Address : Type*) where
  base : RaiiSocket.State Object Address
  epLocal : Object → Endpoint
  epRemote : Object → Endpoint
  peers : Handle → Option Address

/-- How a member function ends. -/
inductive Outcome where
  | returned
  | code (code : ErrorCode)
  | flag (success : Bool)
  | thrown (message : Text)
  deriving DecidableEq, Repr

/-- A step of a run records the entries of the socket objects and how the member function ends. -/
abbrev Event (Address : Type*) := List (RaiiSocket.Entry Address) × Outcome

/-- `make_error_message_with_appended_last_errno`. The buffer of 24 characters has room for each `int`,
and `strerror` is left to the library. -/
def makeErrorMessage (strerror : Int → Text) (error : ErrorCode) (elements : List Text) : Text :=
  Ip.concat (elements ++ [ascii "| Error Code:", Decimal.renderInt error.value, ascii " Error Msg: ",
    strerror error.value])

variable {Object Endpoint Address : Type*} [DecidableEq Object]

namespace State

variable (state : State Object Endpoint Address) (object : Object)

/-- The member `_socket` of a `DgramSocket`. -/
def socket : RaiiSocket := state.base.sockets object

def setEpLocal (ep : Endpoint) : State Object Endpoint Address :=
  { state with epLocal := Function.update state.epLocal object ep }

def setEpRemote (ep : Endpoint) : State Object Endpoint Address :=
  { state with epRemote := Function.update state.epRemote object ep }

/-- An operation of the socket objects. -/
def perform (action : RaiiSocket.Action Object) :
    Option (List (RaiiSocket.Entry Address) × State Object Endpoint Address) :=
  (RaiiSocket.step state.base action).map fun result => (result.1, { state with base := result.2 })

/-- The operating system gives a handle that is not connected. -/
def forget (handle : Handle) : State Object Endpoint Address :=
  { state with peers := Function.update state.peers handle none }

/-- The effect of `::connect` on the operating system, which connects open sockets only. -/
def connected (handle : Handle) (address : Address) (answer : ErrorCode) :
    Option (State Object Endpoint Address) :=
  if answer.success then
    if (state.base.os handle).isSome then
      some { state with peers := Function.update state.peers handle (some address) }
    else none
  else some state

/-- `_socket.set_blocking( shouldBlock )` -/
def setBlocking (shouldBlock : Bool) (answer : ErrorCode) :
    List (RaiiSocket.Entry Address) × State Object Endpoint Address :=
  let (socket, calls) := (state.socket object).setBlocking shouldBlock answer
  (calls.map .call, { state with base := { state.base with
    sockets := Function.update state.base.sockets object socket } })

end State

/-- A move of endpoints between members reads the old value first, so that both may be the same. -/
def moveEndpoint (T : EndpointType Endpoint Address) (endpoints : Object → Endpoint) (self other : Object) :
    Object → Endpoint :=
  let old := endpoints other
  Function.update (Function.update endpoints other (T.movedFrom old)) self old

section Members

variable (strerror : Int → Text) (T : EndpointType Endpoint Address)
  (state : State Object Endpoint Address)

/-- `DgramSocket()` throws when it cannot open a socket, and then its member is destroyed. -/
def construct (object : Object) (answers : Tcp.OpenAnswers) :
    Option (Event Address × State Object Endpoint Address) := do
  let (entries, opened) ← state.perform (.openSocket object answers.socket answers.blocking)
  if (opened.socket object).isValid then
    let fresh := opened.forget (opened.socket object).handle
    return ((entries, .returned), (fresh.setEpLocal object T.empty).setEpRemote object T.empty)
  else
    let (closing, destroyed) ← opened.perform (.destroy object answers.close)
    return ((entries ++ closing,
      .thrown (makeErrorMessage strerror answers.socket.errorCode [ascii "Could not create socket."])),
      destroyed)

/-- `bind` and `try_bind` differ in what they make of the code. -/
def bindWith (finish : ErrorCode → Outcome) (object : Object) (ep : Endpoint) (answer : ErrorCode) :
    Option (Event Address × State Object Endpoint Address) :=
  let call : Call Address := .bind (state.socket object).handle (T.toSockAddr ep) answer
  (state.base.os.apply call).map fun os =>
    let called := { state with base := { state.base with os := os } }
    (([.call call], finish answer), if answer.success then called.setEpLocal object ep else called)

def bind (object : Object) (ep : Endpoint) (answer : ErrorCode) :
    Option (Event Address × State Object Endpoint Address) :=
  bindWith T state (fun result =>
    if result.success then .returned
    else .thrown (makeErrorMessage strerror result
      [ascii "Could not bind datagram socket to address \"", T.toStringEx ep, ascii "\""])) object ep answer

def tryBind (object : Object) (ep : Endpoint) (answer : ErrorCode) :
    Option (Event Address × State Object Endpoint Address) :=
  bindWith T state .code object ep answer

/-- `connect` and `try_connect` differ in what they make of the code. -/
def connectWith (finish : ErrorCode → Outcome) (object : Object) (ep : Endpoint) (answer : ErrorCode) :
    Option (Event Address × State Object Endpoint Address) := do
  let called ← state.connected (state.socket object).handle (T.toSockAddr ep) answer
  return (([], finish answer), if answer.success then called.setEpRemote object ep else called)

def connect (object : Object) (ep : Endpoint) (answer : ErrorCode) :
    Option (Event Address × State Object Endpoint Address) :=
  connectWith T state (fun result =>
    if result.success then .returned
    else .thrown (makeErrorMessage strerror result
      [ascii "Could not connect datagram socket to address \"", T.toStringEx ep, ascii "\""])) object ep answer

def tryConnect (object : Object) (ep : Endpoint) (answer : ErrorCode) :
    Option (Event Address × State Object Endpoint Address) :=
  connectWith T state .code object ep answer

/-- An exception leaves a delegating constructor after the object was complete, so that its destructor
runs. -/
def unwind (object : Object) (answer : CloseAnswer)
    (result : Event Address × State Object Endpoint Address) :
    Option (Event Address × State Object Endpoint Address) :=
  match result with
  | ((entries, .thrown message), state) => do
      let (closing, destroyed) ← state.perform (.destroy object answer)
      return ((entries ++ closing, .thrown message), destroyed)
  | other => some other

/-- What follows only where the part before it returned. -/
def andThen (first : Event Address × State Object Endpoint Address)
    (rest : State Object Endpoint Address → Option (Event Address × State Object Endpoint Address)) :
    Option (Event Address × State Object Endpoint Address) :=
  match first with
  | ((entries, .returned), state) =>
      (rest state).map fun next => ((entries ++ next.1.1, next.1.2), next.2)
  | other => some other

/-- `DgramSocket( endpoint, endpoint )` -/
def constructEndpoints (object : Object) (ep remote : Endpoint) (answers : Tcp.OpenAnswers)
    (bindAnswer connectAnswer : ErrorCode) : Option (Event Address × State Object Endpoint Address) := do
  let opened ← construct strerror T state object answers
  andThen opened fun state => do
    let bound ← bind strerror T state object ep bindAnswer
    let body ← andThen bound fun state => connect strerror T state object remote connectAnswer
    unwind object answers.close body

/-- `DgramSocket( DgramSocket&& )` moves member by member. -/
def moveConstruct (object other : Object) : Option (Event Address × State Object Endpoint Address) := do
  let (entries, moved) ← state.perform (.moveConstruct object other)
  return ((entries, .returned), { moved with
    epLocal := moveEndpoint T moved.epLocal object other
    epRemote := moveEndpoint T moved.epRemote object other })

/-- `operator=( DgramSocket&& )` moves member by member. -/
def moveAssign (self other : Object) (answer : CloseAnswer) :
    Option (Event Address × State Object Endpoint Address) := do
  let (entries, moved) ← state.perform (.moveAssign self other answer)
  return ((entries, .returned), { moved with
    epLocal := moveEndpoint T moved.epLocal self other
    epRemote := moveEndpoint T moved.epRemote self other })

/-- `HighLevelSocketBase::try_close` keeps the endpoints. -/
def tryClose (object : Object) (answer : CloseAnswer) :
    Option (Event Address × State Object Endpoint Address) := do
  let (entries, closed) ← state.perform (.close object answer)
  return ((entries, .flag answer.code.success), closed)

/-- `DgramSocket::close` resets the endpoints first, also where `HighLevelSocketBase::close` throws. -/
def close (object : Object) (answer : CloseAnswer) :
    Option (Event Address × State Object Endpoint Address) := do
  let reset := (state.setEpLocal object T.empty).setEpRemote object T.empty
  let (entries, closed) ← reset.perform (.close object answer)
  return ((entries, if answer.code.success then .returned
    else .thrown (makeErrorMessage strerror answer.code [ascii "Could not close socket"])), closed)

/-- `try_set_blocking` -/
def trySetBlocking (object : Object) (shouldBlock : Bool) (answer : ErrorCode) :
    Option (Event Address × State Object Endpoint Address) :=
  let (entries, set) := state.setBlocking object shouldBlock answer
  some ((entries, .flag ((state.socket object).setBlockingResult shouldBlock answer).success), set)

/-- `HighLevelSocketBase::set_blocking` -/
def setBlocking (object : Object) (shouldBlock : Bool) (answer : ErrorCode) :
    Option (Event Address × State Object Endpoint Address) :=
  let (entries, set) := state.setBlocking object shouldBlock answer
  some ((entries, if ((state.socket object).setBlockingResult shouldBlock answer).success then .returned
    else .thrown (makeErrorMessage strerror answer [ascii "Could not switch blocking mode to ",
      if shouldBlock then ascii "true" else ascii "false", ascii " on socket"])), set)

end Members

/-- A member function with the answers of the operating system, or a change of the open handles by the
rest of the program. -/
inductive Action (Object Endpoint : Type*) where
  | construct (object : Object) (answers : Tcp.OpenAnswers)
  | constructEndpoints (object : Object) (ep remote : Endpoint) (answers : Tcp.OpenAnswers)
      (bind connect : ErrorCode)
  | bind (object : Object) (ep : Endpoint) (answer : ErrorCode)
  | tryBind (object : Object) (ep : Endpoint) (answer : ErrorCode)
  | connect (object : Object) (ep : Endpoint) (answer : ErrorCode)
  | tryConnect (object : Object) (ep : Endpoint) (answer : ErrorCode)
  | setDefaultRemoteEndpoint (object : Object) (ep : Endpoint)
  | setBlocking (object : Object) (shouldBlock : Bool) (answer : ErrorCode)
  | trySetBlocking (object : Object) (shouldBlock : Bool) (answer : ErrorCode)
  | close (object : Object) (answer : CloseAnswer)
  | tryClose (object : Object) (answer : CloseAnswer)
  | moveConstruct (object other : Object)
  | moveAssign (self other : Object) (answer : CloseAnswer)
  | destroy (object : Object) (answer : CloseAnswer)
  | opensElsewhere (handle : Handle)
  | closesElsewhere (handle : Handle)

namespace Action

/-- The socket of a member function that does not change lifetimes. -/
def receiver : Action Object Endpoint → Option Object
  | .bind object _ _ | .tryBind object _ _ | .connect object _ _ | .tryConnect object _ _
  | .setDefaultRemoteEndpoint object _ | .setBlocking object _ _ | .trySetBlocking object _ _ => some object
  | _ => none

/-- The default remote endpoint is set without a call of the operating system. -/
def overrides : Action Object Endpoint → Bool
  | .setDefaultRemoteEndpoint _ _ => true
  | _ => false

end Action

/-- The member function of an action. -/
def call (strerror : Int → Text) (T : EndpointType Endpoint Address) (state : State Object Endpoint Address) :
    Action Object Endpoint → Option (Event Address × State Object Endpoint Address)
  | .construct object answers => construct strerror T state object answers
  | .constructEndpoints object ep remote answers bindAnswer connectAnswer =>
      constructEndpoints strerror T state object ep remote answers bindAnswer connectAnswer
  | .bind object ep answer => bind strerror T state object ep answer
  | .tryBind object ep answer => tryBind T state object ep answer
  | .connect object ep answer => connect strerror T state object ep answer
  | .tryConnect object ep answer => tryConnect T state object ep answer
  | .setDefaultRemoteEndpoint object ep => some (([], .returned), state.setEpRemote object ep)
  | .setBlocking object shouldBlock answer => setBlocking strerror state object shouldBlock answer
  | .trySetBlocking object shouldBlock answer => trySetBlocking state object shouldBlock answer
  | .close object answer => close strerror T state object answer
  | .tryClose object answer => tryClose state object answer
  | .moveConstruct object other => moveConstruct T state object other
  | .moveAssign self other answer => moveAssign T state self other answer
  | .destroy object answer =>
      (state.perform (.destroy object answer)).map fun result => ((result.1, .returned), result.2)
  | .opensElsewhere handle =>
      (state.perform (.opensElsewhere handle)).map fun result => ((result.1, .returned), result.2)
  | .closesElsewhere handle =>
      (state.perform (.closesElsewhere handle)).map fun result => ((result.1, .returned), result.2)

/-- The program calls member functions within the lifetime of a socket only. -/
def step (strerror : Int → Text) (T : EndpointType Endpoint Address)
    (state : State Object Endpoint Address) (action : Action Object Endpoint) :
    Option (Event Address × State Object Endpoint Address) :=
  if action.receiver.all state.base.alive then call strerror T state action else none

def system (Object : Type*) [DecidableEq Object] (strerror : Int → Text)
    (T : EndpointType Endpoint Address) :
    StepSystem (State Object Endpoint Address) (Action Object Endpoint) (Event Address) :=
  ⟨step strerror T⟩

/-- Before the first operation no socket exists. -/
def initial (Object : Type*) (T : EndpointType Endpoint Address) : State Object Endpoint Address where
  base := {}
  epLocal _ := T.empty
  epRemote _ := T.empty
  peers _ := none

/-- `udp::endpoint` as the argument of `DgramSocket`. The endpoint is copied by a move. -/
def udpEndpoint (inetNtop : List UInt8 → Text → Text) (order : ByteOrder) :
    EndpointType (Ip.BasicEndpointV4 .udp) Tcp.SockaddrIn where
  empty := {}
  toSockAddr endpoint := ⟨endpoint.address.inNetOrder, endpoint.port.p⟩
  toStringEx endpoint := Ip.concat [endpoint.toString inetNtop order, ascii " (UDP)"]
  movedFrom endpoint := endpoint

end MartCommon.Netlib.Datagram
