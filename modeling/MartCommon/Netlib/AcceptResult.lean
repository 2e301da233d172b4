import MartCommon.Netlib.AcceptorStages

namespace MartCommon.Netlib

open PortLayer

namespace RaiiSocket

variable {Object Address : Type*} [DecidableEq Object] {before after : State Object Address}
  {entries : List (Entry Address)} {object other : Object}

/-- A new object is where none was. -/
theorem constructed_alive {socket : RaiiSocket} {calls : List (Call Address)}
    (constructed : before.construct object socket calls = some (entries, after)) :
    before.alive object = false ∧ after.alive object = true := by
  obtain ⟨dead, _, _, _, rfl⟩ := construct_eq_some constructed
  exact ⟨dead, Function.update_self _ _ _⟩

/-- A handle that a call creates is the handle of the new object. -/
theorem created_holds {call : Call Address} {handle : Handle} {blocking : ErrorCode}
    (creates : before.os.apply call = before.os.create handle)
    (constructed : before.construct object (ofHandle handle blocking : RaiiSocket × List (Call Address)).1
      (call :: (ofHandle handle blocking).2) = some (entries, after)) :
    after.holds object = some handle := by
  obtain ⟨_, _, os, ran, rfl⟩ := construct_eq_some constructed
  have kept := setBlockingUncached_handle Address { handle := handle } true blocking
  obtain ⟨valid, -, -⟩ := Os.create_eq_some (create_of_run creates ran)
  simp only [State.holds]
  rw [Function.comp_update, Function.comp_update, Function.update_self, ofHandle, kept]
  exact owned_eq_some.mpr ⟨rfl, valid⟩

/-- A socket that the operating system opened has its handle. -/
theorem opened_holds {handle : Handle} {blocking : ErrorCode}
    (stepped : step before (.openSocket object (.ok handle) blocking) = some (entries, after)) :
    after.holds object = some handle :=
  created_holds rfl stepped

/-- An accepted connection has its handle, and no connection is an empty socket. -/
theorem accepted_holds {listener : Object} {answer : ReturnValue Handle} {blocking : ErrorCode}
    (stepped : step before (.accept object listener answer blocking) = some (entries, after)) :
    after.holds object = answer.toOption := by
  simp only [step, Option.ite_none_right_eq_some] at stepped
  cases answer with
  | ok handle => exact created_holds rfl stepped.2
  | error code =>
      obtain ⟨_, _, os, _, rfl⟩ := construct_eq_some stepped.2
      simp only [State.holds]
      rw [Function.comp_update, Function.comp_update, Function.update_self]
      rfl

theorem accepted_alive {listener : Object} {answer : ReturnValue Handle} {blocking : ErrorCode}
    (stepped : step before (.accept object listener answer blocking) = some (entries, after)) :
    after.alive object = true := by
  simp only [step, Option.ite_none_right_eq_some] at stepped
  exact (constructed_alive stepped.2).2

/-- The end of another object takes no handle away. -/
theorem destroyed_holds {answer : CloseAnswer} (different : object ≠ other)
    (stepped : step before (.destroy other answer) = some (entries, after)) :
    after.holds object = before.holds object := by
  simp only [step, Option.ite_none_right_eq_some] at stepped
  obtain ⟨-, os, -, rfl⟩ := perform_eq_some stepped.2
  simp only [State.holds]
  rw [Function.comp_update, Function.comp_update, Function.update_of_ne different]

end RaiiSocket

namespace Tcp

variable {Object Other : Type*} [DecidableEq Object] [DecidableEq Other]

/-- An incoming connection was accepted and its local address could be read. -/
def AcceptAnswers.Connected (answers : AcceptAnswers) : Prop :=
  (∃ handle, answers.accept = .ok handle) ∧ ∃ name, answers.getsockname = .ok name

/-- What a caller reads off the returned `Socket`: it is valid exactly for a connection, and without one
it owns no handle. -/
structure ShowsConnection (answers : AcceptAnswers) (after : State Object Other) (result : Other) :
    Prop where
  valid : (after.base.sockets (.inr result)).isValid = true ↔ answers.Connected
  empty : (∀ handle, answers.accept ≠ .ok handle) →
    (after.base.sockets (.inr result)).isValid = false ∧ after.base.holds (.inr result) = none

section Accept

variable {state after : State Object Other} {object : Object} {sock result : Other}
  {answers : AcceptAnswers} {outcome : Outcome Object Other}

/-- The returned socket always owns a handle: that of the connection, or a fresh one of the default
constructor. -/
theorem acceptSocket_holds {fresh : Handle} (opened : answers.opened.socket = .ok fresh)
    (returned : acceptSocket state object sock result answers = some (outcome, after)) :
    ∃ handle, after.base.holds (.inr result) = some handle := by
  simp only [acceptSocket, Option.bind_eq_bind, Option.bind_eq_some_iff] at returned
  obtain ⟨accepted, first, rest⟩ := returned
  obtain ⟨_, base, acceptStep, finished⟩ := perform_cons.mp first
  rw [perform_nil] at finished
  subst finished
  have holds := RaiiSocket.accepted_holds acceptStep
  split at rest
  · rename_i valid _
    rw [RaiiSocket.isValid_eq] at valid
    change (base.holds (.inr sock)).isSome = true at valid
    simp only [Option.bind_eq_some_iff] at rest
    obtain ⟨final, later, same⟩ := rest
    cases same
    obtain ⟨_, moved, moveStep, later⟩ := perform_cons.mp later
    obtain ⟨_, ended, destroyStep, later⟩ := perform_cons.mp later
    rw [perform_nil] at later
    subst later
    obtain ⟨different, taken, -⟩ := RaiiSocket.moveConstruct_holds moveStep
    rw [RaiiSocket.destroyed_holds different.symm destroyStep, taken]
    exact Option.isSome_iff_exists.mp valid
  · simp only [Option.bind_eq_some_iff] at rest
    obtain ⟨final, later, same⟩ := rest
    cases same
    obtain ⟨_, made, openStep, later⟩ := perform_cons.mp later
    obtain ⟨_, ended, destroyStep, later⟩ := perform_cons.mp later
    rw [perform_nil] at later
    subst later
    rw [opened] at openStep
    have different : Sum.inr result ≠ (Sum.inr sock : Member Object Other) := by
      intro same
      have free := (RaiiSocket.constructed_alive openStep).1
      rw [same, RaiiSocket.accepted_alive acceptStep] at free
      contradiction
    rw [RaiiSocket.destroyed_holds different destroyStep, RaiiSocket.opened_holds openStep]
    exact ⟨fresh, rfl⟩

/-- Whenever `accept` or `try_accept` returns and a fresh socket could be opened, the returned socket
shows whether there is a connection exactly where there is one. -/
theorem showsConnection_iff {fresh : Handle} {returned : Other} {epLocal epRemote : Endpoint}
    (opened : answers.opened.socket = .ok fresh)
    (called : accept state object sock result answers =
        some (.accepted returned epLocal epRemote, after) ∨
      tryAccept state object sock result answers =
        some (.accepted returned epLocal epRemote, after)) :
    ShowsConnection answers after result ↔ answers.Connected := by
  obtain ⟨handle, held⟩ : ∃ handle, after.base.holds (.inr result) = some handle := by
    rcases called with called | called
    · exact acceptSocket_holds opened called
    · rw [tryAccept] at called
      split at called
      · cases called
      · exact acceptSocket_holds opened called
  have valid : (after.base.sockets (.inr result)).isValid = true := by
    rw [RaiiSocket.isValid_eq]
    change (after.base.holds (.inr result)).isSome = true
    rw [held]
    rfl
  constructor
  · exact fun shown => shown.valid.mp valid
  · intro connected
    refine ⟨⟨fun _ => connected, fun _ => valid⟩, fun nothing => ?_⟩
    obtain ⟨⟨incoming, accepted⟩, -⟩ := connected
    exact absurd accepted (nothing incoming)

end Accept

/-- The acceptor `true` listens with the handle `3`. -/
def listeningState : State Bool Nat where
  base := {
    os := Function.update (fun _ => none) ⟨3⟩ (some ⟨.listening, some ⟨⟨0⟩, ⟨0⟩⟩⟩)
    alive := Function.update (fun _ => false) (.inl true) true
    sockets := Function.update (fun _ => {}) (.inl true) ⟨⟨3⟩, true⟩ }
  state := fun _ => .listening

/-- A fresh socket would get the handle `5`, and the call to close an invalid handle fails. -/
def answersTo (accept : ReturnValue Handle) : AcceptAnswers :=
  ⟨⟨0⟩, accept, ⟨0⟩, ⟨⟨0⟩, ⟨0⟩⟩, .ok ⟨⟨0⟩, ⟨0⟩⟩, ⟨.ok ⟨5⟩, ⟨0⟩, ⟨⟨9⟩, false⟩⟩⟩

theorem showsConnection_accepted :
    ∃ after, tryAccept listeningState true 0 1 (answersTo (.ok ⟨4⟩)) =
        some (.accepted 1 (ofSockAddrIn ⟨⟨0⟩, ⟨0⟩⟩) (ofSockAddrIn ⟨⟨0⟩, ⟨0⟩⟩), after) ∧
      ShowsConnection (answersTo (.ok ⟨4⟩)) after 1 := by
  obtain ⟨after, called⟩ : ∃ after, tryAccept listeningState true 0 1 (answersTo (.ok ⟨4⟩)) =
      some (.accepted 1 (ofSockAddrIn ⟨⟨0⟩, ⟨0⟩⟩) (ofSockAddrIn ⟨⟨0⟩, ⟨0⟩⟩), after) := ⟨_, rfl⟩
  exact ⟨after, called, (showsConnection_iff rfl (.inr called)).mpr ⟨⟨_, rfl⟩, _, rfl⟩⟩

/-- `accept` times out with `EAGAIN` and returns a valid socket with the fresh handle `5`. -/
theorem showsConnection_timeout :
    ∃ after, accept listeningState true 0 1 (answersTo (.error ⟨11⟩)) =
        some (.accepted 1 {} {}, after) ∧ after.base.holds (.inr 1) = some ⟨5⟩ ∧
      ¬ ShowsConnection (answersTo (.error ⟨11⟩)) after 1 := by
  obtain ⟨after, called, held⟩ : ∃ after,
      accept listeningState true 0 1 (answersTo (.error ⟨11⟩)) =
        some (.accepted 1 {} {}, after) ∧ after.base.holds (.inr 1) = some ⟨5⟩ := ⟨_, rfl, rfl⟩
  refine ⟨after, called, held, fun shown => ?_⟩
  have empty := (shown.empty fun handle => by simp [answersTo]).2
  rw [held] at empty
  contradiction

end Tcp

end MartCommon.Netlib
