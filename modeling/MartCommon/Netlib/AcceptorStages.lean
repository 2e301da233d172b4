import MartCommon.Netlib.Acceptor
import MartCommon.Netlib.RaiiSocketFrame

namespace MartCommon.Netlib.Tcp

open Library PortLayer
open RaiiSocket (Safe owned owned_eq_some owned_invalid)

variable {Object Other : Type*} [DecidableEq Object] [DecidableEq Other]

/-- The fields of an acceptor tell the stage of a socket and the address that it is bound to. -/
structure Matches (socket : OsSocket SockaddrIn) (stage : Stage) (ep : Endpoint) : Prop where
  reached : socket.stage = stage
  unbound : stage = .opened → ep = {}
  address : stage ≠ .opened → socket.address = some (toSockAddrIn ep)

/-- The valid handle of an acceptor. -/
def State.holds (state : State Object Other) (object : Object) : Option Handle :=
  state.base.holds (.inl object)

/-- The fields of each acceptor with a socket tell its stage and address. -/
def Consistent (state : State Object Other) : Prop :=
  ∀ object handle, state.holds object = some handle →
    ∃ socket, state.base.os handle = some socket ∧
      Matches socket (state.state object) (state.epLocal object)

/-- The members own their handles and the acceptors are consistent. -/
structure Sound (state : State Object Other) : Prop where
  safe : ∃ events, Safe events state.base
  consistent : Consistent state

theorem perform_nil {state after : State Object Other} :
    state.perform [] = some after ↔ after = state := by
  rw [State.perform, StepSystem.execute, Option.map_some, Option.some.injEq, eq_comm]

/-- Operations on socket objects do not read the endpoints. -/
theorem perform_setEpLocal {state after : State Object Other}
    {actions : List (RaiiSocket.Action (Member Object Other))}
    (performed : state.perform actions = some after) (object : Object) (ep : Endpoint) :
    (state.setEpLocal object ep).perform actions = some (after.setEpLocal object ep) := by
  rw [State.perform, Option.map_eq_some_iff] at performed ⊢
  obtain ⟨result, executed, rfl⟩ := performed
  exact ⟨result, executed, rfl⟩

/-- Operations on socket objects are performed one after the other. -/
theorem perform_cons {state after : State Object Other}
    {action : RaiiSocket.Action (Member Object Other)}
    {rest : List (RaiiSocket.Action (Member Object Other))} :
    state.perform (action :: rest) = some after ↔
      ∃ entries base, RaiiSocket.step state.base action = some (entries, base) ∧
        { state with base := base }.perform rest = some after := by
  simp only [State.perform, StepSystem.execute, RaiiSocket.system]
  cases RaiiSocket.step state.base action with
  | none => simp
  | some result =>
      obtain ⟨entries, base⟩ := result
      simp only [Option.some.injEq, Prod.mk.injEq]
      constructor
      · intro performed
        refine ⟨entries, base, ⟨rfl, rfl⟩, ?_⟩
        split at performed
        · contradiction
        · rename_i history final executed
          simpa [executed] using performed
      · rintro ⟨_, _, ⟨rfl, rfl⟩, performed⟩
        split
        · rename_i refused
          simp [refused] at performed
        · rename_i history final executed
          simpa [executed] using performed

/-- An operation on socket objects keeps the acceptors sound, if it leaves the acceptors that it
touches consistent. -/
theorem Sound.member {state after : State Object Other}
    {action : RaiiSocket.Action (Member Object Other)}
    {entries : List (RaiiSocket.Entry SockaddrIn)} (sound : Sound state)
    (stepped : RaiiSocket.step state.base action = some (entries, after.base))
    (same : ∀ object, .inl object ∉ action.touches →
      after.epLocal object = state.epLocal object ∧ after.state object = state.state object)
    (touched : ∀ object handle, .inl object ∈ action.touches → after.holds object = some handle →
      ∃ socket, after.base.os handle = some socket ∧
        Matches socket (after.state object) (after.epLocal object)) : Sound after := by
  obtain ⟨events, safe⟩ := sound.safe
  refine ⟨⟨_, safe.step stepped⟩, ?_⟩
  intro object handle held
  by_cases touches : Sum.inl object ∈ action.touches
  · exact touched object handle touches held
  · obtain ⟨sameSocket, _, sameOs⟩ := safe.step_frame stepped touches
    obtain ⟨sameEp, sameState⟩ := same object touches
    have before : state.holds object = some handle := by
      rw [← held]
      simp only [State.holds, RaiiSocket.State.holds, Function.comp_apply, sameSocket]
    rw [sameEp, sameState, sameOs handle before]
    exact sound.consistent object handle before

/-- Operations on socket objects of the rest of the program keep the acceptors sound. -/
theorem Sound.others {state after : State Object Other}
    {actions : List (RaiiSocket.Action (Member Object Other))} (sound : Sound state)
    (untouched : ∀ action ∈ actions, ∀ object, .inl object ∉ action.touches)
    (performed : state.perform actions = some after) :
    Sound after ∧ after.epLocal = state.epLocal ∧ after.state = state.state ∧
      ∀ object, after.holds object = state.holds object := by
  induction actions generalizing state with
  | nil =>
      rw [perform_nil] at performed
      subst performed
      exact ⟨sound, rfl, rfl, fun _ => rfl⟩
  | cons action rest ih =>
      obtain ⟨entries, base, stepped, performed⟩ := perform_cons.mp performed
      obtain ⟨events, safe⟩ := sound.safe
      have away := untouched action (by simp)
      have next : Sound { state with base := base } :=
        sound.member stepped (fun _ _ => ⟨rfl, rfl⟩)
          fun object _ touches => absurd touches (away object)
      obtain ⟨kept, sameEp, sameState, sameHolds⟩ :=
        ih next (fun other member => untouched other (by simp [member])) performed
      refine ⟨kept, sameEp, sameState, fun object => (sameHolds object).trans ?_⟩
      obtain ⟨sameSocket, _, _⟩ := safe.step_frame stepped (away object)
      simp only [State.holds, RaiiSocket.State.holds, Function.comp_apply, sameSocket]

/-- A socket that was just opened matches an acceptor in its first stage. -/
theorem matches_opened : Matches {} .opened {} where
  reached := rfl
  unbound := fun _ => rfl
  address := fun different => absurd rfl different

section Steps

variable {state after : State Object Other} {object other self : Object}
  {outcome : Outcome Object Other}

/-- The end of an acceptor's lifetime keeps the others sound. -/
theorem Sound.destroy {answer : CloseAnswer} (sound : Sound state)
    (performed : state.perform [.destroy (.inl object) answer] = some after) : Sound after := by
  obtain ⟨entries, base, stepped, finished⟩ := perform_cons.mp performed
  rw [perform_nil] at finished
  subst finished
  refine sound.member stepped (fun _ _ => ⟨rfl, rfl⟩) ?_
  intro target handle touches held
  have same : target = object := by simpa [RaiiSocket.Action.touches] using touches
  subst same
  have empty := RaiiSocket.destroy_holds stepped
  rw [State.holds, empty] at held
  contradiction

/-- A new acceptor is open and not bound. -/
theorem Sound.construct {answers : OpenAnswers} (sound : Sound state)
    (stepped : construct state object answers = some (outcome, after)) :
    Sound after ∧ (outcome = .returned → after.state object = .opened) ∧
      ∀ present, outcome ≠ .assertionFailed present := by
  simp only [Tcp.construct, Option.bind_eq_bind, Option.bind_eq_some_iff] at stepped
  obtain ⟨opened, performed, continued⟩ := stepped
  obtain ⟨entries, base, memberStep, finished⟩ := perform_cons.mp performed
  rw [perform_nil] at finished
  subst finished
  have kept : Sound (({ state with base := base }.setEpLocal object {}).setState object .opened) := by
    refine sound.member memberStep ?_ ?_
    · intro target away
      have different : target ≠ object := by
        rintro rfl
        exact away (by simp [RaiiSocket.Action.touches])
      exact ⟨Function.update_of_ne different _ _, Function.update_of_ne different _ _⟩
    · intro target handle touches held
      have same : target = object := by simpa [RaiiSocket.Action.touches] using touches
      subst same
      refine ⟨{}, RaiiSocket.opened_os memberStep held, ?_⟩
      simpa [State.setEpLocal, State.setState] using matches_opened
  split at continued
  · cases continued
    exact ⟨kept, fun _ => Function.update_self _ _ _, by simp⟩
  · simp only [Option.bind_eq_some_iff] at continued
    obtain ⟨destroyed, closed, result⟩ := continued
    cases result
    exact ⟨kept.destroy closed, by simp, by simp⟩

omit [DecidableEq Other] in
/-- A call that keeps the other handles as they are changes the acceptor of its handle only. -/
theorem Sound.call {os : Os SockaddrIn} {handle : Handle} {stage : Stage} {ep : Endpoint}
    {socket : OsSocket SockaddrIn} (sound : Sound state)
    (called : os = Function.update state.base.os handle (some socket))
    (opened : (state.base.os handle).isSome = true)
    (holder : (state.socketHandle object).handle = handle) (matched : Matches socket stage ep) :
    Sound (({ state with base := { state.base with os := os } }.setEpLocal object ep).setState
      object stage) := by
  obtain ⟨events, safe⟩ := sound.safe
  have valid : handle ≠ .invalid := by
    rintro rfl
    simp [safe.reserved] at opened
  refine ⟨⟨events, safe.os_congr ?_⟩, ?_⟩
  · intro other
    rw [called]
    by_cases same : other = handle
    · rw [same, Function.update_self, opened]
      rfl
    · rw [Function.update_of_ne same]
  · intro target other held
    by_cases same : target = object
    · subst same
      have heldHandle : other = handle := by
        rw [← holder]
        exact (owned_eq_some.mp held).1.symm
      subst heldHandle
      refine ⟨socket, ?_, ?_⟩
      · simp [State.setEpLocal, State.setState, called]
      · simpa [State.setEpLocal, State.setState] using matched
    · have different : other ≠ handle := by
        rintro rfl
        have shared : state.holds object = some other := owned_eq_some.mpr ⟨holder, valid⟩
        have := safe.owned.unique (.inl target) (.inl object) other held shared
        exact same (Sum.inl.inj this)
      simp only [State.setEpLocal, State.setState, called, Function.update_of_ne same,
        Function.update_of_ne different]
      exact sound.consistent target other held

omit [DecidableEq Object] [DecidableEq Other] in
/-- The effect of a single call of the port layer. -/
theorem call_singleton {call : Call SockaddrIn} :
    state.call [call] = some after ↔ ∃ os, state.base.os.apply call = some os ∧
      after = { state with base := { state.base with os := os } } := by
  simp only [State.call, Os.run]
  cases state.base.os.apply call with
  | none => simp
  | some os => simp [eq_comm]

omit [DecidableEq Object] [DecidableEq Other] in
/-- The operating system has been called in both cases. What follows depends on its answer. -/
theorem answered_cases {call : Call SockaddrIn} {answer : ErrorCode} {onFailure : Outcome Object Other}
    {finish : State Object Other → State Object Other}
    (stepped : ((state.call [call]).bind fun called =>
      if answer.success then some (.returned, finish called) else some (onFailure, called)) =
        some (outcome, after)) :
    ∃ os, state.base.os.apply call = some os ∧
      (answer.success = true ∧ outcome = .returned ∧
          after = finish { state with base := { state.base with os := os } } ∨
        answer.success = false ∧ outcome = onFailure ∧
          after = { state with base := { state.base with os := os } }) := by
  obtain ⟨called, calls, continued⟩ := Option.bind_eq_some_iff.mp stepped
  obtain ⟨os, applied, rfl⟩ := call_singleton.mp calls
  refine ⟨os, applied, ?_⟩
  cases success : answer.success with
  | true =>
      rw [if_pos success] at continued
      cases continued
      exact .inl ⟨rfl, rfl, rfl⟩
  | false =>
      rw [if_neg (by rw [success]; exact Bool.false_ne_true)] at continued
      cases continued
      exact .inr ⟨rfl, rfl, rfl⟩

/-- A result that is neither a normal return nor a failed assertion. -/
def IsError (outcome : Outcome Object Other) : Prop :=
  outcome ≠ .returned ∧ ∀ object, outcome ≠ .assertionFailed object

omit [DecidableEq Other] in
/-- A successful `bind` moves the acceptor from the first stage to the second one. Its assertion
fails at other stages only. -/
theorem Sound.bindOr {onError : ErrorCode → Outcome Object Other} {ep : Endpoint}
    {answer : ErrorCode} (errors : ∀ code, IsError (onError code)) (sound : Sound state)
    (stepped : bindOr onError state object ep answer = some (outcome, after)) :
    Sound after ∧ (outcome = .returned → after.state object = .bound) ∧
      ∀ present, outcome = .assertionFailed present →
        present = object ∧ state.state object ≠ .opened := by
  unfold Tcp.bindOr at stepped
  split at stepped
  · rename_i misused
    cases stepped
    exact ⟨⟨sound.safe, sound.consistent⟩, by simp, by simp [misused, eq_comm]⟩
  obtain ⟨os, applied, ⟨success, rfl, rfl⟩ | ⟨failure, rfl, rfl⟩⟩ := answered_cases stepped
  · simp only [Os.apply, success, ↓reduceIte] at applied
    split at applied
    · rename_i address found
      have matched : Matches ⟨.bound, some (toSockAddrIn ep)⟩ .bound ep :=
        ⟨rfl, by simp, fun _ => rfl⟩
      refine ⟨sound.call (Option.some.inj applied).symm (by simp [found]) rfl matched, ?_, by simp⟩
      exact fun _ => Function.update_self _ _ _
    · contradiction
  · simp only [Os.apply, failure] at applied
    cases applied
    exact ⟨⟨sound.safe, sound.consistent⟩, fun returned => absurd returned (errors answer).1,
      fun present failed => absurd failed ((errors answer).2 present)⟩

omit [DecidableEq Other] in
/-- A successful `listen` moves the acceptor from the second stage to the last one. Its assertion
fails at other stages only. -/
theorem Sound.listenOr {onError : ErrorCode → Outcome Object Other} {backlog : Int}
    {answer : ErrorCode} (errors : ∀ code, IsError (onError code)) (sound : Sound state)
    (stepped : listenOr onError state object backlog answer = some (outcome, after)) :
    Sound after ∧ ∀ present, outcome = .assertionFailed present →
      present = object ∧ state.state object ≠ .bound := by
  unfold Tcp.listenOr at stepped
  split at stepped
  · rename_i misused
    cases stepped
    exact ⟨⟨sound.safe, sound.consistent⟩, by simp [misused, eq_comm]⟩
  rename_i bound
  obtain ⟨os, applied, ⟨success, rfl, rfl⟩ | ⟨failure, rfl, rfl⟩⟩ := answered_cases stepped
  · simp only [Os.apply, success, ↓reduceIte] at applied
    split at applied
    · rename_i socket found
      refine ⟨?_, by simp⟩
      have held : state.holds object = some (state.socketHandle object).handle := by
        obtain ⟨events, safe⟩ := sound.safe
        refine owned_eq_some.mpr ⟨rfl, fun invalid => ?_⟩
        rw [invalid, safe.reserved] at found
        contradiction
      obtain ⟨known, present, before⟩ := sound.consistent object _ held
      rw [found, Option.some.injEq] at present
      subst present
      have stage : state.state object = .bound := by simpa using bound
      have matched : Matches { socket with stage := .listening } .listening (state.epLocal object) :=
        ⟨rfl, by simp, fun _ => before.address (by simp [stage])⟩
      have kept := sound.call (Option.some.inj applied).symm (by simp [found]) rfl matched
      have unchanged : Function.update state.epLocal object (state.epLocal object) =
        state.epLocal := Function.update_eq_self _ _
      simpa [State.setEpLocal, unchanged] using kept
    · contradiction
  · simp only [Os.apply, failure] at applied
    cases applied
    exact ⟨⟨sound.safe, sound.consistent⟩,
      fun present failed => absurd failed ((errors answer).2 present)⟩

/-- The blocking mode does not matter for the acceptors. -/
theorem Sound.setBlocking {shouldBlock : Bool} {answer : ErrorCode} (sound : Sound state) :
    Sound (state.setBlocking object shouldBlock answer) := by
  obtain ⟨events, safe⟩ := sound.safe
  have same : RaiiSocket.handle ∘ (state.setBlocking object shouldBlock answer).base.sockets =
      RaiiSocket.handle ∘ state.base.sockets := by
    rw [State.setBlocking, Function.comp_update, RaiiSocket.setBlocking_handle]
    exact Function.update_eq_self (Sum.inl object) (RaiiSocket.handle ∘ state.base.sockets)
  refine ⟨⟨events, safe.sockets_congr same⟩, ?_⟩
  intro target handle held
  have before : state.holds target = some handle := by
    rw [← held]
    simp only [State.holds, RaiiSocket.State.holds, same]
  exact sound.consistent target handle before

/-- Accepting a connection concerns sockets of the rest of the program only. -/
theorem Sound.acceptSocket {sock result : Other} {answers : AcceptAnswers} (sound : Sound state)
    (stepped : acceptSocket state object sock result answers = some (outcome, after)) :
    Sound after ∧ ∀ present, outcome ≠ .assertionFailed present := by
  simp only [Tcp.acceptSocket, Option.bind_eq_bind, Option.bind_eq_some_iff] at stepped
  obtain ⟨accepted, performed, continued⟩ := stepped
  have kept := (sound.others (by simp [RaiiSocket.Action.touches]) performed).1
  split at continued
  · simp only [Option.bind_eq_some_iff] at continued
    obtain ⟨returned, closed, finished⟩ := continued
    cases finished
    exact ⟨(kept.others (by simp [RaiiSocket.Action.touches]) closed).1, by simp⟩
  · simp only [Option.bind_eq_some_iff] at continued
    obtain ⟨returned, closed, finished⟩ := continued
    cases finished
    exact ⟨(kept.others (by simp [RaiiSocket.Action.touches]) closed).1, by simp⟩

/-- A move assignment keeps the acceptors sound when there is no socket to move or when both
acceptors are in the same state. -/
theorem Sound.moveAssign {answer : CloseAnswer} (sound : Sound state)
    (agree : state.holds other = none ∨ state.state self = state.state other)
    (stepped : moveAssign state self other answer = some (outcome, after)) :
    Sound after ∧ ∀ present, outcome ≠ .assertionFailed present := by
  simp only [Tcp.moveAssign, Option.bind_eq_bind, Option.bind_eq_some_iff] at stepped
  obtain ⟨moved, performed, finished⟩ := stepped
  cases finished
  refine ⟨?_, by simp⟩
  obtain ⟨entries, base, memberStep, done⟩ := perform_cons.mp performed
  rw [perform_nil] at done
  subst done
  obtain ⟨events, safe⟩ := sound.safe
  obtain ⟨emptied, target⟩ := safe.moveAssign_holds memberStep
  refine sound.member memberStep ?_ ?_
  · intro present away
    simp only [RaiiSocket.Action.touches, List.mem_cons, Sum.inl.injEq, List.not_mem_nil,
      or_false, not_or] at away
    simp [State.setEpLocal, away]
  · intro present handle touches held
    have notOther : present ≠ other := by
      rintro rfl
      rw [State.holds, State.setEpLocal, State.setEpLocal, emptied] at held
      contradiction
    simp only [RaiiSocket.Action.touches, List.mem_cons, Sum.inl.injEq, List.not_mem_nil,
      or_false, notOther] at touches
    subst touches
    obtain ⟨sameHolds, sameOs⟩ := target (by simpa [eq_comm] using notOther)
    have before : state.holds other = some handle := sameHolds.symm.trans held
    have sameState := agree.resolve_left (by simp [before])
    obtain ⟨socket, present, matched⟩ := sound.consistent other handle before
    refine ⟨socket, (sameOs handle before).trans present, ?_⟩
    simpa [State.setEpLocal, notOther, sameState] using matched

/-- The new acceptor copies the fields with the socket. The other one gets a fresh socket, and its
state tells the stage of it when it was open before. -/
theorem Sound.moveConstruct {temporary : Other} {answers : OpenAnswers} {closeOther : CloseAnswer}
    (sound : Sound state) (opened : state.state other = .opened)
    (stepped : moveConstruct state object other temporary answers closeOther =
      some (outcome, after)) :
    Sound after ∧ ∀ present, outcome ≠ .assertionFailed present := by
  simp only [Tcp.moveConstruct, Option.bind_eq_bind, Option.bind_eq_some_iff] at stepped
  obtain ⟨moved, firstMove, fresh, secondOpen, continued⟩ := stepped
  obtain ⟨entries, base, memberStep, done⟩ := perform_cons.mp firstMove
  rw [perform_nil] at done
  subst done
  obtain ⟨apart, newHolds, otherHolds, sameOs⟩ := RaiiSocket.moveConstruct_holds memberStep
  have kept : Sound (({ state with base := base }.setEpLocal object (state.epLocal other)).setState
      object (state.state other)) := by
    refine sound.member memberStep ?_ ?_
    · intro present away
      simp only [RaiiSocket.Action.touches, List.mem_cons, Sum.inl.injEq, List.not_mem_nil,
        or_false, not_or] at away
      simp [State.setEpLocal, State.setState, away]
    · intro present handle touches held
      have notOther : present ≠ other := by
        rintro rfl
        rw [State.holds, State.setState, State.setEpLocal, otherHolds] at held
        contradiction
      simp only [RaiiSocket.Action.touches, List.mem_cons, Sum.inl.injEq, List.not_mem_nil,
        or_false, notOther] at touches
      subst touches
      obtain ⟨socket, present, matched⟩ := sound.consistent other handle (newHolds.symm.trans held)
      refine ⟨socket, (congrFun sameOs handle).trans present, ?_⟩
      simpa [State.setEpLocal, State.setState] using matched
  obtain ⟨keptFresh, _, sameState, _⟩ := kept.others (by simp [RaiiSocket.Action.touches]) secondOpen
  obtain ⟨entries, base, openStep, done⟩ := perform_cons.mp secondOpen
  rw [perform_nil] at done
  subst done
  split at continued
  · simp only [Option.bind_eq_some_iff] at continued
    obtain ⟨assigned, performed, finished⟩ := continued
    cases finished
    refine ⟨?_, by simp⟩
    obtain ⟨entries, base, assignStep, closed⟩ := perform_cons.mp performed
    obtain ⟨events, safe⟩ := keptFresh.safe
    obtain ⟨_, target⟩ := safe.moveAssign_holds assignStep
    obtain ⟨sameHolds, sameOs⟩ := target (by simp)
    refine (Sound.others ?_ (by simp [RaiiSocket.Action.touches])
      (perform_setEpLocal closed other {})).1
    refine keptFresh.member assignStep ?_ ?_
    · intro present away
      have notOther : present ≠ other := by simpa [RaiiSocket.Action.touches] using away
      simp [State.setEpLocal, notOther]
    · intro present handle touches held
      have same : present = other := by simpa [RaiiSocket.Action.touches] using touches
      subst same
      have heldBefore := sameHolds.symm.trans held
      refine ⟨{}, (sameOs handle heldBefore).trans (RaiiSocket.opened_os openStep heldBefore), ?_⟩
      have stage : (Function.update state.state object (state.state present)) present = .opened := by
        rw [Function.update_of_ne fun same => apart (congrArg Sum.inl same), opened]
      simpa [State.setEpLocal, State.setState, stage] using matches_opened
  · cases continued
    exact ⟨⟨keptFresh.safe, keptFresh.consistent⟩, by simp⟩

/-- Unwinding destroys the acceptor after an exception and fails no assertion. -/
theorem Sound.unwind {answer : CloseAnswer} {result : Outcome Object Other × State Object Other}
    (sound : Sound result.2) (stepped : unwind object answer result = some (outcome, after)) :
    Sound after ∧ ∀ present, outcome = .assertionFailed present →
      result.1 = .assertionFailed present := by
  obtain ⟨ended, state⟩ := result
  unfold Tcp.unwind at stepped
  split at stepped
  · simp only [Option.bind_eq_bind, Option.bind_eq_some_iff] at stepped
    obtain ⟨destroyed, closed, finished⟩ := stepped
    cases finished
    rename_i error thrown same
    cases same
    exact ⟨sound.destroy closed, by simp⟩
  · cases stepped
    exact ⟨sound, fun _ failed => failed⟩

/-- The constructor from an endpoint binds an open socket and listens on a bound one. -/
theorem Sound.constructEndpoint {ep : Endpoint} {backlog : Int} {answers : OpenAnswers}
    {bindAnswer listenAnswer : ErrorCode} (sound : Sound state)
    (stepped : constructEndpoint state object ep backlog answers bindAnswer listenAnswer =
      some (outcome, after)) :
    Sound after ∧ ∀ present, outcome ≠ .assertionFailed present := by
  simp only [Tcp.constructEndpoint, Option.bind_eq_bind, Option.bind_eq_some_iff] at stepped
  obtain ⟨⟨first, opened⟩, constructed, continued⟩ := stepped
  obtain ⟨soundOpened, stageOpened, noFailure⟩ := sound.construct constructed
  split at continued
  · rename_i same
    cases same
    simp only [Option.bind_eq_some_iff] at continued
    obtain ⟨⟨second, bound⟩, bound_, continued⟩ := continued
    obtain ⟨soundBound, stageBound, failedBind⟩ :=
      soundOpened.bindOr (fun _ => ⟨by simp, by simp⟩) bound_
    split at continued
    · rename_i same
      cases same
      simp only [Option.bind_eq_some_iff] at continued
      obtain ⟨⟨third, listening⟩, listened, unwound⟩ := continued
      obtain ⟨soundListening, failedListen⟩ :=
        soundBound.listenOr (fun _ => ⟨by simp, by simp⟩) listened
      obtain ⟨kept, failed⟩ := Sound.unwind soundListening unwound
      refine ⟨kept, fun present wrong => ?_⟩
      exact (failedListen present (failed present wrong)).2 (stageBound rfl)
    · obtain ⟨kept, failed⟩ := Sound.unwind soundBound continued
      refine ⟨kept, fun present wrong => ?_⟩
      exact (failedBind present (failed present wrong)).2 (stageOpened rfl)
  · cases continued
    exact ⟨soundOpened, noFailure⟩

end Steps

/-- The acceptor and the stage that the assertion of a member function asks for. -/
def Action.needs : Action Object Other → Option (Object × Stage)
  | .bind object _ _ => some (object, .opened)
  | .tryBind object _ _ => some (object, .opened)
  | .listen object _ _ => some (object, .bound)
  | .tryListen object _ _ => some (object, .bound)
  | .tryAccept object _ _ _ => some (object, .listening)
  | _ => none

/-- A move constructor takes from an open acceptor. A move assignment takes from an acceptor that
holds no socket or that is in the state of the target. -/
def movesInState (state : State Object Other) : Action Object Other → Bool
  | .moveConstruct _ other _ _ _ => state.state other == .opened
  | .moveAssign self other _ =>
      (state.holds other).isNone || state.state self == state.state other
  | _ => true

/-- An operation that meets the condition on moves keeps the acceptors sound. An assertion fails
only when the field `_state` is not what it asks for. -/
theorem Sound.step {state after : State Object Other} {action : Action Object Other}
    {outcome : Outcome Object Other} (sound : Sound state)
    (allowed : movesInState state action = true)
    (stepped : step state action = some (outcome, after)) :
    Sound after ∧ ∀ object, outcome = .assertionFailed object →
      ∃ stage, action.needs = some (object, stage) ∧ state.state object ≠ stage := by
  simp only [Tcp.step, Option.ite_none_right_eq_some] at stepped
  obtain ⟨_, stepped⟩ := stepped
  cases action with
  | construct object answers =>
      obtain ⟨kept, _, noFailure⟩ := sound.construct stepped
      exact ⟨kept, fun present failed => absurd failed (noFailure present)⟩
  | constructEndpoint object ep backlog answers bindAnswer listenAnswer =>
      obtain ⟨kept, noFailure⟩ := sound.constructEndpoint stepped
      exact ⟨kept, fun present failed => absurd failed (noFailure present)⟩
  | bind object ep answer | tryBind object ep answer =>
      obtain ⟨kept, _, failure⟩ := sound.bindOr (fun _ => ⟨by simp, by simp⟩) stepped
      refine ⟨kept, fun present failed => ?_⟩
      obtain ⟨rfl, misused⟩ := failure present failed
      exact ⟨.opened, rfl, misused⟩
  | listen object backlog answer | tryListen object backlog answer =>
      obtain ⟨kept, failure⟩ := sound.listenOr (fun _ => ⟨by simp, by simp⟩) stepped
      refine ⟨kept, fun present failed => ?_⟩
      obtain ⟨rfl, misused⟩ := failure present failed
      exact ⟨.bound, rfl, misused⟩
  | accept object sock result answers =>
      obtain ⟨kept, noFailure⟩ := sound.setBlocking.acceptSocket stepped
      exact ⟨kept, fun present failed => absurd failed (noFailure present)⟩
  | tryAccept object sock result answers =>
      simp only [tryAccept] at stepped
      split at stepped
      · rename_i misused
        cases stepped
        refine ⟨⟨sound.safe, sound.consistent⟩, fun present failed => ?_⟩
        cases failed
        exact ⟨.listening, rfl, misused⟩
      · obtain ⟨kept, noFailure⟩ := sound.setBlocking.acceptSocket stepped
        exact ⟨kept, fun present failed => absurd failed (noFailure present)⟩
  | moveConstruct object other temporary answers closeOther =>
      have opened : state.state other = .opened := by simpa [movesInState] using allowed
      obtain ⟨kept, noFailure⟩ := sound.moveConstruct opened stepped
      exact ⟨kept, fun present failed => absurd failed (noFailure present)⟩
  | moveAssign self other answer =>
      have agree : state.holds other = none ∨ state.state self = state.state other := by
        simpa [movesInState] using allowed
      obtain ⟨kept, noFailure⟩ := sound.moveAssign agree stepped
      exact ⟨kept, fun present failed => absurd failed (noFailure present)⟩
  | destroy object answer =>
      simp only [Option.map_eq_some_iff] at stepped
      obtain ⟨destroyed, performed, finished⟩ := stepped
      cases finished
      exact ⟨sound.destroy performed, by simp⟩
  | elsewhere action =>
      simp only [Option.map_eq_some_iff] at stepped
      obtain ⟨changed, performed, finished⟩ := stepped
      cases finished
      refine ⟨(sound.others ?_ performed).1, by simp⟩
      intro renamed member object
      rw [List.mem_singleton.mp member]
      cases action <;> simp [RaiiSocket.Action.map, RaiiSocket.Action.touches]

omit [DecidableEq Object] [DecidableEq Other] in
theorem sound_initial : Sound ({} : State Object Other) where
  safe := ⟨[], RaiiSocket.safe_initial⟩
  consistent := by
    intro object handle held
    contradiction

/-- In every run whose moves meet the condition, the fields of each acceptor with a socket tell the
stage and the address of the socket. An assertion fails only when the socket is not at the stage
that the member function needs. -/
theorem acceptor_stages {history : List (Outcome Object Other)} {state : State Object Other}
    (run : ((system Object Other).restrict
      fun state action => movesInState state action = true).Run {} history state) :
    (∀ object handle, state.holds object = some handle →
      ∃ socket, state.base.os handle = some socket ∧
        Matches socket (state.state object) (state.epLocal object)) ∧
    ∀ action object after, movesInState state action = true →
      step state action = some (.assertionFailed object, after) →
      ∃ stage, action.needs = some (object, stage) ∧
        ∀ handle socket, state.holds object = some handle →
          state.base.os handle = some socket → socket.stage ≠ stage := by
  have sound : Sound state := by
    apply run.invariant (fun _ state => Sound state) sound_initial
    intro history before action outcome after sound stepped
    obtain ⟨allowed, stepped⟩ := StepSystem.restrict_step.mp stepped
    exact (sound.step allowed stepped).1
  refine ⟨sound.consistent, ?_⟩
  intro action object after allowed stepped
  obtain ⟨stage, needs, different⟩ := (sound.step allowed stepped).2 object rfl
  refine ⟨stage, needs, fun handle socket held present => ?_⟩
  obtain ⟨known, found, matched⟩ := sound.consistent object handle held
  rw [present, Option.some.injEq] at found
  rw [found, matched.reached]
  exact different

/-- An acceptor moves while it is open, and then it is bound and listens. -/
def orderedActions : List (Action Bool Unit) :=
  [.construct false ⟨.ok ⟨3⟩, ⟨0⟩, ⟨⟨0⟩, false⟩⟩, .construct true ⟨.ok ⟨4⟩, ⟨0⟩, ⟨⟨0⟩, false⟩⟩,
    .moveAssign true false ⟨⟨0⟩, false⟩, .bind true {} ⟨0⟩, .listen true 10 ⟨0⟩]

theorem acceptor_stages_ordered : ∃ history state,
    ((system Bool Unit).restrict fun state action => movesInState state action = true).execute {}
      orderedActions = some (history, state) ∧
      state.state true = .listening ∧
      ∀ handle, state.holds true = some handle → ∃ socket, state.base.os handle = some socket ∧
        Matches socket .listening (state.epLocal true) :=
  ⟨_, _, rfl, rfl, fun handle held =>
    (acceptor_stages (StepSystem.run_of_execute orderedActions rfl)).1 true handle held⟩

/-- A listening acceptor is assigned to an open one, which forgets that it listens. -/
def forgetfulActions : List (Action Bool Unit) :=
  [.construct false ⟨.ok ⟨3⟩, ⟨0⟩, ⟨⟨0⟩, false⟩⟩, .bind false {} ⟨0⟩, .listen false 10 ⟨0⟩,
    .construct true ⟨.ok ⟨4⟩, ⟨0⟩, ⟨⟨0⟩, false⟩⟩, .moveAssign true false ⟨⟨0⟩, false⟩]

theorem acceptor_stages_forgotten :
    ¬ ∀ history state, (system Bool Unit).Run {} history state → Consistent state := by
  intro claimed
  obtain ⟨socket, found, matched⟩ :=
    claimed _ _ (StepSystem.run_of_execute forgetfulActions rfl) true ⟨3⟩ rfl
  have listening : socket = ⟨.listening, some ⟨⟨0⟩, ⟨0⟩⟩⟩ := (Option.some.inj found).symm
  have reached := matched.reached
  rw [listening] at reached
  contradiction

end MartCommon.Netlib.Tcp
