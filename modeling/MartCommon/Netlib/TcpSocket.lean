import MartCommon.Netlib.DatagramEndpoints

namespace MartCommon.Netlib.TcpSocket

open Library PortLayer
open Datagram (EndpointType Event Outcome Shows Sound andThen makeErrorMessage)
open RaiiSocket (Entry)

/-- What `Socket` uses of its endpoints. An address is what the endpoint that is made of it tells. -/
structure NameType (Endpoint Address : Type*) extends EndpointType Endpoint Address where
  ofSockAddr : Address → Endpoint
  tells : ∀ address, toSockAddr (ofSockAddr address) = address

/-- A `Socket` has the members of a `DgramSocket`. The address of a handle is the one that it was bound to or
that the operating system told last. -/
abbrev State (Object Endpoint Address : Type*) := Datagram.State Object Endpoint Address

variable {Object Endpoint Address : Type*} [DecidableEq Object]

/-- `getSockAddress` -/
def getSockAddress (state : State Object Endpoint Address) (object : Object) (answer : ReturnValue Address) :
    Option (List (Entry Address) × State Object Endpoint Address) :=
  let handle := (state.socket object).handle
  match answer with
  | .error _ => some ([.call (.getsockname handle answer)], state)
  | .ok address =>
      (state.base.os handle).map fun socket => ([.call (.getsockname handle answer)],
        { state with base := { state.base with
          os := Function.update state.base.os handle (some { socket with address := some address }) } })

section Members

variable (strerror : Int → Text) (N : NameType Endpoint Address) (state : State Object Endpoint Address)

/-- `Socket()` makes a socket without a handle where it cannot open one. -/
def construct (object : Object) (answers : Tcp.OpenAnswers) :
    Option (Event Address × State Object Endpoint Address) := do
  let (entries, opened) ← state.perform (.openSocket object answers.socket answers.blocking)
  let fresh := opened.forget (opened.socket object).handle
  return ((entries, .returned), (fresh.setEpLocal object N.empty).setEpRemote object N.empty)

def bind (object : Object) (ep : Endpoint) (answer : ErrorCode) :
    Option (Event Address × State Object Endpoint Address) :=
  Datagram.bindWith N.toEndpointType state (fun result =>
    if result.success then .returned
    else .thrown (makeErrorMessage strerror result
      [ascii "Could not bind tcp socket to address ", N.toStringEx ep])) object ep answer

/-- `connect` and `try_connect` differ in how they end. Both keep the remote endpoint where the operating system
does not tell the local one. -/
def connectWith (done : Outcome) (refused nameless : ErrorCode → Outcome) (object : Object) (ep : Endpoint)
    (answer : ErrorCode) (name : ReturnValue Address) :
    Option (Event Address × State Object Endpoint Address) := do
  let called ← state.connected (state.socket object).handle (N.toSockAddr ep) answer
  if answer.success then
    let (entries, told) ← getSockAddress (called.setEpRemote object ep) object name
    match name with
    | .ok address => return ((entries, done), told.setEpLocal object (N.ofSockAddr address))
    | .error code => return ((entries, nameless code), told)
  else return (([], refused answer), called)

def connect (object : Object) (ep : Endpoint) (answer : ErrorCode) (name : ReturnValue Address) :
    Option (Event Address × State Object Endpoint Address) :=
  connectWith N state .returned
    (fun code => .thrown (makeErrorMessage strerror code
      [ascii "Could not connect socket to address ", N.toStringEx ep]))
    (fun code => .thrown (makeErrorMessage strerror code [ascii "Could not get port of connected socket "]))
    object ep answer name

def tryConnect (object : Object) (ep : Endpoint) (answer : ErrorCode) (name : ReturnValue Address) :
    Option (Event Address × State Object Endpoint Address) :=
  connectWith N state (.flag true) (fun _ => .flag false) (fun _ => .flag false) object ep answer name

/-- `Socket( endpoint, endpoint )` -/
def constructEndpoints (object : Object) (ep remote : Endpoint) (answers : Tcp.OpenAnswers)
    (bindAnswer connectAnswer : ErrorCode) (name : ReturnValue Address) :
    Option (Event Address × State Object Endpoint Address) := do
  let opened ← construct N state object answers
  andThen opened fun state => do
    let bound ← bind strerror N state object ep bindAnswer
    let body ← andThen bound fun state => connect strerror N state object remote connectAnswer name
    Datagram.unwind object answers.close body

/-- The function `connect( endpoint )` destroys its socket where it throws. -/
def connectTo (object : Object) (ep : Endpoint) (answers : Tcp.OpenAnswers) (answer : ErrorCode)
    (name : ReturnValue Address) : Option (Event Address × State Object Endpoint Address) := do
  let opened ← construct N state object answers
  andThen opened fun state => do
    let body ← connect strerror N state object ep answer name
    Datagram.unwind object answers.close body

/-- `~Socket()` -/
def destroy (object : Object) (answer : CloseAnswer) :
    Option (Event Address × State Object Endpoint Address) :=
  (state.perform (.destroy object answer)).map fun result => ((result.1, .returned), result.2)

/-- `operator=( Socket&& )` exchanges the endpoints of the other socket for empty ones. -/
def moveAssign (self other : Object) (answer : CloseAnswer) :
    Option (Event Address × State Object Endpoint Address) :=
  Datagram.moveAssign N.toEndpointType state self other answer

/-- `Socket( Socket&& )` assigns a temporary `Socket{}` to the other one, whose endpoints it copied. -/
def moveConstruct (object other temporary : Object) (answers : Tcp.OpenAnswers)
    (closeOther : CloseAnswer) : Option (Event Address × State Object Endpoint Address) := do
  let moved ← Datagram.moveConstruct N.toEndpointType state object other
  andThen moved fun state => do
    let opened ← construct N state temporary answers
    andThen opened fun state => do
      let assigned ← moveAssign N state other temporary closeOther
      andThen assigned fun state => destroy state temporary answers.close

/-- `HighLevelSocketBase::close` keeps the endpoints. -/
def close (object : Object) (answer : CloseAnswer) : Option (Event Address × State Object Endpoint Address) :=
  (state.perform (.close object answer)).map fun result =>
    ((result.1, if answer.code.success then .returned
      else .thrown (makeErrorMessage strerror answer.code [ascii "Could not close socket"])), result.2)

end Members

/-- A member function with the answers of the operating system, or a change of the open handles by the
rest of the program. -/
inductive Action (Object Endpoint Address : Type*) where
  | construct (object : Object) (answers : Tcp.OpenAnswers)
  | constructEndpoints (object : Object) (ep remote : Endpoint) (answers : Tcp.OpenAnswers)
      (bind connect : ErrorCode) (name : ReturnValue Address)
  | connectTo (object : Object) (ep : Endpoint) (answers : Tcp.OpenAnswers) (answer : ErrorCode)
      (name : ReturnValue Address)
  | bind (object : Object) (ep : Endpoint) (answer : ErrorCode)
  | connect (object : Object) (ep : Endpoint) (answer : ErrorCode) (name : ReturnValue Address)
  | tryConnect (object : Object) (ep : Endpoint) (answer : ErrorCode) (name : ReturnValue Address)
  | setBlocking (object : Object) (shouldBlock : Bool) (answer : ErrorCode)
  | trySetBlocking (object : Object) (shouldBlock : Bool) (answer : ErrorCode)
  | close (object : Object) (answer : CloseAnswer)
  | tryClose (object : Object) (answer : CloseAnswer)
  | moveConstruct (object other temporary : Object) (answers : Tcp.OpenAnswers) (closeOther : CloseAnswer)
  | moveAssign (self other : Object) (answer : CloseAnswer)
  | destroy (object : Object) (answer : CloseAnswer)
  | opensElsewhere (handle : Handle)
  | closesElsewhere (handle : Handle)

/-- The socket of a member function that does not change lifetimes. -/
def Action.receiver : Action Object Endpoint Address → Option Object
  | .bind object _ _ | .connect object _ _ _ | .tryConnect object _ _ _ | .setBlocking object _ _
  | .trySetBlocking object _ _ => some object
  | _ => none

/-- The member function of an action. -/
def call (strerror : Int → Text) (N : NameType Endpoint Address) (state : State Object Endpoint Address) :
    Action Object Endpoint Address → Option (Event Address × State Object Endpoint Address)
  | .construct object answers => construct N state object answers
  | .constructEndpoints object ep remote answers bindAnswer connectAnswer name =>
      constructEndpoints strerror N state object ep remote answers bindAnswer connectAnswer name
  | .connectTo object ep answers answer name => connectTo strerror N state object ep answers answer name
  | .bind object ep answer => bind strerror N state object ep answer
  | .connect object ep answer name => connect strerror N state object ep answer name
  | .tryConnect object ep answer name => tryConnect N state object ep answer name
  | .setBlocking object shouldBlock answer => Datagram.setBlocking strerror state object shouldBlock answer
  | .trySetBlocking object shouldBlock answer => Datagram.trySetBlocking state object shouldBlock answer
  | .close object answer => close strerror state object answer
  | .tryClose object answer => Datagram.tryClose state object answer
  | .moveConstruct object other temporary answers closeOther =>
      moveConstruct N state object other temporary answers closeOther
  | .moveAssign self other answer => moveAssign N state self other answer
  | .destroy object answer => destroy state object answer
  | .opensElsewhere handle =>
      (state.perform (.opensElsewhere handle)).map fun result => ((result.1, .returned), result.2)
  | .closesElsewhere handle =>
      (state.perform (.closesElsewhere handle)).map fun result => ((result.1, .returned), result.2)

/-- The program calls member functions within the lifetime of a socket only. -/
def step (strerror : Int → Text) (N : NameType Endpoint Address) (state : State Object Endpoint Address)
    (action : Action Object Endpoint Address) : Option (Event Address × State Object Endpoint Address) :=
  if action.receiver.all state.base.alive then call strerror N state action else none

def system (Object : Type*) [DecidableEq Object] (strerror : Int → Text) (N : NameType Endpoint Address) :
    StepSystem (State Object Endpoint Address) (Action Object Endpoint Address) (Event Address) :=
  ⟨step strerror N⟩

/-- `tcp::endpoint` as an endpoint of a `Socket` -/
def tcpEndpoint (inetNtop : List UInt8 → Text → Text) (order : ByteOrder) :
    NameType Tcp.Endpoint Tcp.SockaddrIn where
  empty := {}
  toSockAddr := Tcp.toSockAddrIn
  toStringEx endpoint := Ip.concat [endpoint.toString inetNtop order, ascii " (TCP)"]
  movedFrom _ := {}
  ofSockAddr := Tcp.ofSockAddrIn
  tells _ := rfl

section Steps

variable {strerror : Int → Text} {N : NameType Endpoint Address} {events : List (Ownership.Event Handle)}
  {state after : State Object Endpoint Address} {object other self : Object} {event : Event Address}
  {answers : Tcp.OpenAnswers} {ep : Endpoint} {answer : ErrorCode} {name : ReturnValue Address}

/-- What a step of a socket keeps: the events and the state behind it are sound again. -/
def Keeps (N : NameType Endpoint Address) (events : List (Ownership.Event Handle))
    (result : Event Address × State Object Endpoint Address) : Prop :=
  Sound N.toEndpointType True (events ++ result.1.1.filterMap Entry.ownership) result.2

/-- A new socket has a handle without addresses, or no handle. -/
theorem keeps_construct (sound : Sound N.toEndpointType True events state)
    (stepped : construct N state object answers = some (event, after)) : Keeps N events (event, after) := by
  simp only [construct, Option.bind_eq_bind, Option.bind_eq_some_iff] at stepped
  obtain ⟨⟨entries, opened⟩, performed, finished⟩ := stepped
  cases finished
  obtain ⟨openStep, same⟩ := Datagram.perform_eq_some.mp performed
  have stepFresh : RaiiSocket.step state.base (.openSocket object answers.socket answers.blocking) =
      some (entries, (((opened.forget (opened.socket object).handle).setEpLocal object
        N.empty).setEpRemote object N.empty).base) := openStep
  apply sound.member stepFresh nofun
  · intro target away
    have different : target ≠ object := by simpa [RaiiSocket.Action.touches] using away
    rw [same]
    exact ⟨Function.update_of_ne different _ _, Function.update_of_ne different _ _⟩
  · intro target handle away holds
    have different : target ≠ object := by simpa [RaiiSocket.Action.touches] using away
    have elsewhere : handle ≠ (opened.socket object).handle := by
      intro shared
      have valid := (RaiiSocket.owned_eq_some.mp holds).2
      have mine : opened.base.holds object = some handle :=
        RaiiSocket.owned_eq_some.mpr ⟨shared.symm, valid⟩
      have theirs : opened.base.holds target = some handle := by
        obtain ⟨sameSocket, -⟩ := sound.safe.step_frame openStep away
        rw [← holds]
        simp only [RaiiSocket.State.holds, Function.comp_apply, sameSocket]
      exact different ((sound.safe.step openStep).owned.unique target object handle theirs mine)
    rw [same]
    exact Function.update_of_ne elsewhere _ _
  · intro target handle touches holds
    rw [List.mem_singleton.mp touches] at holds ⊢
    have mine : (opened.socket object).handle = handle := (RaiiSocket.owned_eq_some.mp holds).1
    have noPeer : (opened.forget (opened.socket object).handle).peers handle = none := by
      rw [mine]
      exact Function.update_self _ _ _
    refine ⟨⟨{}, RaiiSocket.opened_os openStep holds, Function.update_self _ _ _⟩, fun _ => ?_⟩
    change Shows _ ((opened.forget (opened.socket object).handle).peers handle) _
    rw [noPeer]
    exact Function.update_self _ _ _

/-- What the operating system tells about a handle is what the local endpoint is set to. -/
theorem sound_named {address : Address} {entries : List (Entry Address)}
    (sound : Sound N.toEndpointType True events state)
    (told : getSockAddress state object (.ok address) = some (entries, after)) :
    Sound N.toEndpointType True (events ++ entries.filterMap Entry.ownership)
      (after.setEpLocal object (N.ofSockAddr address)) := by
  obtain ⟨socket, found, same⟩ := Option.map_eq_some_iff.mp told
  obtain ⟨rfl, rfl⟩ := Prod.mk.inj same
  change Sound _ _ (events ++ []) _
  rw [List.append_nil]
  have holder := sound.holder (by rw [found]; rfl)
  refine ⟨sound.safe.os_congr ?_, sound.unreleased, ?_⟩
  · intro handle
    by_cases here : handle = (state.socket object).handle
    · rw [here, Function.update_self, found]
      rfl
    · rw [Function.update_of_ne here]
  · intro target handle holds
    by_cases here : target = object
    · subst here
      have mine : handle = (state.socket target).handle := (RaiiSocket.owned_eq_some.mp holds).1.symm
      subst mine
      obtain ⟨-, remote⟩ := sound.agrees target _ holder
      refine ⟨⟨_, Function.update_self _ _ _, ?_⟩, remote⟩
      change N.toSockAddr (Function.update state.epLocal target (N.ofSockAddr address) target) = _
      rw [Function.update_self]
      exact N.tells address
    · have elsewhere := sound.others holder here holds
      exact (sound.agrees target handle holds).congr (Function.update_of_ne elsewhere _ _) rfl
        (Function.update_of_ne here _ _) rfl

/-- A connected socket tells its peer, and the local address where the operating system tells it. -/
theorem keeps_connectWith {done : Outcome} {refused nameless : ErrorCode → Outcome}
    (sound : Sound N.toEndpointType True events state)
    (stepped : connectWith N state done refused nameless object ep answer name = some (event, after)) :
    Keeps N events (event, after) := by
  simp only [connectWith, Option.bind_eq_bind, Option.bind_eq_some_iff] at stepped
  obtain ⟨called, applied, continued⟩ := stepped
  -- the first half of the function is the one of a `DgramSocket`
  have connected : Sound N.toEndpointType True events
      (if answer.success then called.setEpRemote object ep else called) := by
    have plain : Datagram.connectWith N.toEndpointType state .code object ep answer =
        some (([], .code answer), if answer.success then called.setEpRemote object ep else called) := by
      simp only [Datagram.connectWith, applied]
      rfl
    have kept := sound.connectWith plain
    rwa [List.filterMap_nil, List.append_nil] at kept
  split at continued
  · rename_i success
    rw [if_pos success] at connected
    simp only [Option.bind_eq_some_iff] at continued
    obtain ⟨⟨entries, told⟩, named, finished⟩ := continued
    cases name with
    | ok address =>
        cases finished
        exact sound_named connected named
    | error code =>
        cases finished
        cases named
        change Sound _ _ (events ++ []) _
        rw [List.append_nil]
        exact connected
  · rename_i failure
    rw [if_neg failure] at connected
    cases continued
    change Sound _ _ (events ++ []) _
    rw [List.append_nil]
    exact connected

theorem keeps_bind (sound : Sound N.toEndpointType True events state)
    (stepped : bind strerror N state object ep answer = some (event, after)) : Keeps N events (event, after) :=
  sound.bindWith stepped

theorem keeps_connect (sound : Sound N.toEndpointType True events state)
    (stepped : connect strerror N state object ep answer name = some (event, after)) :
    Keeps N events (event, after) :=
  keeps_connectWith sound stepped

theorem keeps_destroy {closing : CloseAnswer} (sound : Sound N.toEndpointType True events state)
    (stepped : destroy state object closing = some (event, after)) : Keeps N events (event, after) := by
  obtain ⟨result, performed, finished⟩ := Option.map_eq_some_iff.mp stepped
  cases finished
  exact sound.destroy performed

theorem keeps_close {closing : CloseAnswer} (sound : Sound N.toEndpointType True events state)
    (stepped : close strerror state object closing = some (event, after)) : Keeps N events (event, after) := by
  obtain ⟨result, performed, finished⟩ := Option.map_eq_some_iff.mp stepped
  cases finished
  exact sound.tryClose performed

/-- The constructor with endpoints destroys the socket again where it throws. -/
theorem keeps_constructEndpoints {remote : Endpoint} {connectAnswer : ErrorCode}
    (sound : Sound N.toEndpointType True events state)
    (stepped : constructEndpoints strerror N state object ep remote answers answer connectAnswer name =
      some (event, after)) : Keeps N events (event, after) := by
  simp only [constructEndpoints, Option.bind_eq_bind, Option.bind_eq_some_iff] at stepped
  obtain ⟨opened, constructed, continued⟩ := stepped
  refine Sound.andThen (keeps_construct sound constructed) ?_ continued
  intro events middle event after sound continued
  simp only [Option.bind_eq_some_iff] at continued
  obtain ⟨bound, binds, body, connects, unwound⟩ := continued
  refine Sound.unwind (Sound.andThen (keeps_bind sound binds) ?_ connects) unwound
  intro events middle event after sound continued
  exact keeps_connect sound continued

theorem keeps_connectTo (sound : Sound N.toEndpointType True events state)
    (stepped : connectTo strerror N state object ep answers answer name = some (event, after)) :
    Keeps N events (event, after) := by
  simp only [connectTo, Option.bind_eq_bind, Option.bind_eq_some_iff] at stepped
  obtain ⟨opened, constructed, continued⟩ := stepped
  refine Sound.andThen (keeps_construct sound constructed) ?_ continued
  intro events middle event after sound continued
  simp only [Option.bind_eq_some_iff] at continued
  obtain ⟨body, connects, unwound⟩ := continued
  exact Sound.unwind (keeps_connect sound connects) unwound

/-- A socket that is moved takes its addresses with it, and the other one starts anew. -/
theorem keeps_moveConstruct {temporary : Object} {closeOther : CloseAnswer}
    (sound : Sound N.toEndpointType True events state)
    (stepped : moveConstruct N state object other temporary answers closeOther = some (event, after)) :
    Keeps N events (event, after) := by
  simp only [moveConstruct, Option.bind_eq_bind, Option.bind_eq_some_iff] at stepped
  obtain ⟨moved, moves, continued⟩ := stepped
  refine Sound.andThen (sound.moveConstruct moves) ?_ continued
  intro events middle event after sound continued
  simp only [Option.bind_eq_some_iff] at continued
  obtain ⟨opened, constructed, continued⟩ := continued
  refine Sound.andThen (keeps_construct sound constructed) ?_ continued
  intro events middle event after sound continued
  simp only [Option.bind_eq_some_iff] at continued
  obtain ⟨assigned, assigns, continued⟩ := continued
  refine Sound.andThen (Sound.moveAssign sound assigns) ?_ continued
  intro events middle event after sound continued
  exact keeps_destroy sound continued

/-- Each operation keeps the sockets sound. -/
theorem keeps_step {action : Action Object Endpoint Address} (sound : Sound N.toEndpointType True events state)
    (stepped : step strerror N state action = some (event, after)) : Keeps N events (event, after) := by
  obtain ⟨-, stepped⟩ := Option.ite_none_right_eq_some.mp stepped
  cases action with
  | construct object answers => exact keeps_construct sound stepped
  | constructEndpoints object ep remote answers bindAnswer connectAnswer name =>
      exact keeps_constructEndpoints sound stepped
  | connectTo object ep answers answer name => exact keeps_connectTo sound stepped
  | bind object ep answer => exact keeps_bind sound stepped
  | connect object ep answer name => exact keeps_connect sound stepped
  | tryConnect object ep answer name =>
      change tryConnect N state object ep answer name = _ at stepped
      exact keeps_connectWith sound stepped
  | setBlocking object shouldBlock answer | trySetBlocking object shouldBlock answer =>
      cases stepped
      exact sound.setBlocking
  | close object answer => exact keeps_close sound stepped
  | tryClose object answer =>
      change Datagram.tryClose state object answer = _ at stepped
      simp only [Datagram.tryClose, Option.bind_eq_bind, Option.bind_eq_some_iff] at stepped
      obtain ⟨⟨entries, closed⟩, performed, finished⟩ := stepped
      obtain ⟨rfl, rfl⟩ := Prod.mk.inj (Option.some.inj finished)
      exact sound.tryClose performed
  | moveConstruct object other temporary answers closeOther => exact keeps_moveConstruct sound stepped
  | moveAssign self other answer => exact sound.moveAssign stepped
  | destroy object answer => exact keeps_destroy sound stepped
  | opensElsewhere handle | closesElsewhere handle =>
      obtain ⟨result, performed, finished⟩ := Option.map_eq_some_iff.mp stepped
      cases finished
      exact sound.vacate performed (by simp) (by simp [RaiiSocket.Action.touches])

end Steps

section Runs

variable {strerror : Int → Text} {N : NameType Endpoint Address}
  {state : State Object Endpoint Address} {history : List (Event Address)}

theorem run_sound
    (run : (system Object strerror N).Run (Datagram.initial Object N.toEndpointType) history state) :
    Sound N.toEndpointType True (Datagram.ledger history) state := by
  apply run.invariant fun history state => Sound N.toEndpointType True (Datagram.ledger history) state
  · exact Datagram.sound_initial
  · intro history before action event after sound stepped
    rw [Datagram.ledger, List.flatMap_append, List.flatMap_singleton]
    exact keeps_step sound stepped

/-- In every run each handle belongs to one living `Socket` at most, and it is closed exactly once, and only
while one holds it, unless one still does: also through moves, the temporary sockets in them, and constructors
that throw. The local endpoint of a socket with a handle is the one that the handle was bound to or that the
operating system told last, and the remote endpoint is the one that it was connected to last, even where the
call that connected it failed behind that. Both are empty where there is none. -/
theorem tcp_sockets
    (run : (system Object strerror N).Run (Datagram.initial Object N.toEndpointType) history state) :
    (∀ first second handle, state.base.holds first = some handle →
      state.base.holds second = some handle → first = second) ∧
    (∀ object, state.base.alive object = false → state.base.holds object = none) ∧
    (∀ handle, ∃ held : Bool, (held = true ↔ ∃ object, state.base.holds object = some handle) ∧
      (Datagram.ledger history).count (.acquired handle) =
        (Datagram.ledger history).count (.closed handle) + held.toNat) ∧
    (∀ handle earlier later, Datagram.ledger history = earlier ++ .closed handle :: later →
      earlier.count (.acquired handle) = earlier.count (.closed handle) + 1) ∧
    ∀ object handle, state.base.holds object = some handle →
      Shows N.toEndpointType (state.peers handle) (state.epRemote object) ∧
        ∃ socket, state.base.os handle = some socket ∧
          Shows N.toEndpointType socket.address (state.epLocal object) := by
  have sound := run_sound run
  refine ⟨sound.safe.owned.unique, sound.safe.dead, sound.counts, ?_, ?_⟩
  · intro handle earlier later parts
    rw [parts] at sound
    exact sound.closed
  · intro object handle held
    obtain ⟨local_, remote⟩ := sound.agrees object handle held
    exact ⟨remote trivial, local_⟩

/-- The operations of plain `tcp::Socket` objects. -/
def plainSystem : StepSystem (State Nat Tcp.Endpoint Tcp.SockaddrIn)
    (Action Nat Tcp.Endpoint Tcp.SockaddrIn) (Event Tcp.SockaddrIn) :=
  system Nat (fun _ => []) (tcpEndpoint (fun _ buffer => buffer) .littleEndian)

/-- The local address of a connection is not told, and the socket moves. -/
def namelessActions : List (Action Nat Tcp.Endpoint Tcp.SockaddrIn) :=
  [.construct 0 ⟨.ok ⟨3⟩, ⟨0⟩, ⟨⟨0⟩, false⟩⟩, .bind 0 ⟨.ofHost .littleEndian 1 80⟩ ⟨0⟩,
    .tryConnect 0 ⟨.ofHost .littleEndian 2 90⟩ ⟨0⟩ (.error ⟨105⟩),
    .moveConstruct 1 0 2 ⟨.ok ⟨4⟩, ⟨0⟩, ⟨⟨9⟩, false⟩⟩ ⟨⟨9⟩, false⟩]

theorem tcp_sockets_nameless : ∃ history state,
    plainSystem.Run (Datagram.initial Nat (tcpEndpoint (fun _ buffer => buffer) .littleEndian).toEndpointType)
      history state ∧
      state.base.holds 1 = some ⟨3⟩ ∧ state.base.holds 0 = some ⟨4⟩ ∧ state.peers ⟨4⟩ = none ∧
      state.epRemote 0 = {} ∧
      Shows (tcpEndpoint (fun _ buffer => buffer) .littleEndian).toEndpointType (state.peers ⟨3⟩)
        (state.epRemote 1) := by
  have executed : plainSystem.execute (Datagram.initial Nat
      (tcpEndpoint (fun _ buffer => buffer) .littleEndian).toEndpointType) namelessActions =
      some (_, _) := rfl
  have run := StepSystem.run_of_execute _ executed
  obtain ⟨-, -, -, -, tells⟩ := tcp_sockets run
  exact ⟨_, _, run, rfl, rfl, rfl, (tells 0 ⟨4⟩ rfl).1, (tells 1 ⟨3⟩ rfl).1⟩

end Runs

end MartCommon.Netlib.TcpSocket
