import MartCommon.Netlib.RaiiSocketSafety

namespace MartCommon.Netlib.RaiiSocket

open Library PortLayer

variable {Object Address : Type*} [DecidableEq Object]

/-- The objects that an operation changes. -/
def Action.touches : Action Object → List Object
  | .default object => [object]
  | .adopt object _ _ => [object]
  | .openSocket object _ _ => [object]
  | .accept object _ _ _ => [object]
  | .moveConstruct object other => [object, other]
  | .moveAssign self other _ => [self, other]
  | .close object _ => [object]
  | .release object => [object]
  | .destroy object _ => [object]
  | .opensElsewhere _ => []
  | .closesElsewhere _ => []

section Frame

variable {events : List (Ownership.Event Handle)} {before after : State Object Address}
  {entries : List (Entry Address)} {object other : Object} {handle : Handle}

omit [DecidableEq Object] in
/-- Creating a handle does not change one that has an owner. -/
theorem Safe.create_frame {os : Os Address} {created : Handle} (safe : Safe events before)
    (held : before.holds object = some handle) (creates : before.os.create created = some os) :
    os handle = before.os handle := by
  obtain ⟨_, unused, rfl⟩ := Os.create_eq_some creates
  apply Function.update_of_ne
  rintro rfl
  exact safe.free (.inl unused) object held

omit [DecidableEq Object] in
/-- Closing the handle of an object does not change one that another object owns. -/
theorem Safe.close_frame {os : Os Address} {answer : CloseAnswer} (safe : Safe events before)
    (held : before.holds object = some handle) (different : object ≠ other)
    (closes : before.os.close (before.sockets other).handle answer = some os) :
    os handle = before.os handle := by
  apply Os.close_eq_some closes
  intro same
  have valid := (owned_eq_some.mp held).2
  exact different (safe.owned.unique object other handle held
    (owned_eq_some.mpr ⟨same.symm, valid⟩))

omit [DecidableEq Object] in
/-- An object that gives up its handle does not change the handle of another object. -/
theorem Safe.gives_up_frame {os : Os Address} {answer : CloseAnswer} (safe : Safe events before)
    (different : object ≠ other)
    (ran : (before.abandon (before.sockets other).handle answer).os.run
      ((before.sockets other).close answer).2 = some os)
    (held : before.holds object = some handle) : os handle = before.os handle := by
  obtain ⟨sameOs, -, -⟩ := abandon_frame before (before.sockets other).handle answer
  rw [sameOs, run_close] at ran
  exact safe.close_frame held different ran

/-- A construction leaves the other objects and the handles with an owner as they are. -/
theorem Safe.construct_frame {target : Object} {socket : RaiiSocket} {calls : List (Call Address)}
    (constructed : before.construct target socket calls = some (entries, after))
    (untouched : object ≠ target)
    (frame : ∀ os, before.os.run calls = some os → ∀ handle, before.holds object = some handle →
      os handle = before.os handle) :
    after.sockets object = before.sockets object ∧ after.alive object = before.alive object ∧
      ∀ handle, before.holds object = some handle → after.os handle = before.os handle := by
  obtain ⟨_, _, os, ran, rfl⟩ := construct_eq_some constructed
  exact ⟨Function.update_of_ne untouched _ _, Function.update_of_ne untouched _ _,
    frame os ran⟩

/-- An operation leaves the objects that it does not touch, and their handles, as they are. -/
theorem Safe.step_frame {action : Action Object} (safe : Safe events before)
    (stepped : RaiiSocket.step before action = some (entries, after)) (untouched : object ∉ action.touches) :
    after.sockets object = before.sockets object ∧ after.alive object = before.alive object ∧
      ∀ handle, before.holds object = some handle → after.os handle = before.os handle := by
  cases action with
  | default target =>
      apply construct_frame stepped (by simpa [Action.touches] using untouched)
      intro os ran handle _
      cases ran
      rfl
  | adopt target adopted blocking =>
      simp only [RaiiSocket.step, Option.ite_none_right_eq_some] at stepped
      obtain ⟨_, constructed⟩ := stepped
      split at constructed
      · contradiction
      rename_i rest final built
      simp only [Option.some.injEq, Prod.mk.injEq] at constructed
      obtain ⟨_, rfl⟩ := constructed
      have away : object ≠ target := by simpa [Action.touches] using untouched
      obtain ⟨_, _, os, ran, rfl⟩ := construct_eq_some built
      cases ran
      exact ⟨Function.update_of_ne away _ _, Function.update_of_ne away _ _, fun _ _ => rfl⟩
  | openSocket target answer blocking =>
      apply construct_frame stepped (by simpa [Action.touches] using untouched)
      intro os ran handle held
      cases answer with
      | error code =>
          cases ran
          rfl
      | ok created => exact safe.create_frame held (create_of_run rfl ran)
  | accept target listener answer blocking =>
      simp only [RaiiSocket.step, Option.ite_none_right_eq_some] at stepped
      apply construct_frame stepped.2 (by simpa [Action.touches] using untouched)
      intro os ran handle held
      cases answer with
      | error code =>
          cases ran
          rfl
      | ok created => exact safe.create_frame held (create_of_run rfl ran)
  | moveConstruct target source =>
      simp only [Action.touches, List.mem_cons, List.not_mem_nil, or_false, not_or] at untouched
      simp only [RaiiSocket.step, Option.ite_none_right_eq_some] at stepped
      obtain ⟨_, _, os, ran, rfl⟩ := construct_eq_some stepped.2
      cases ran
      refine ⟨?_, Function.update_of_ne untouched.1 _ _, fun _ _ => rfl⟩
      simp [Function.update_of_ne untouched.1, Function.update_of_ne untouched.2]
  | moveAssign self source answer =>
      simp only [Action.touches, List.mem_cons, List.not_mem_nil, or_false, not_or] at untouched
      simp only [RaiiSocket.step, Option.ite_none_right_eq_some] at stepped
      obtain ⟨_, os, ran, rfl⟩ := perform_eq_some stepped.2
      obtain ⟨-, sameAlive, -⟩ := abandon_frame before (before.sockets self).handle answer
      refine ⟨?_, congrFun sameAlive object, fun handle => safe.gives_up_frame untouched.1 ran⟩
      simp [RaiiSocket.moveAssign, exchangeBlocking, exchangeHandle,
        Function.update_of_ne untouched.1, Function.update_of_ne untouched.2]
  | close target answer =>
      have away : object ≠ target := by simpa [Action.touches] using untouched
      simp only [RaiiSocket.step, Option.ite_none_right_eq_some] at stepped
      obtain ⟨_, os, ran, rfl⟩ := perform_eq_some stepped.2
      obtain ⟨-, sameAlive, -⟩ := abandon_frame before (before.sockets target).handle answer
      exact ⟨Function.update_of_ne away _ _, congrFun sameAlive object,
        fun handle => safe.gives_up_frame away ran⟩
  | release target =>
      have away : object ≠ target := by simpa [Action.touches] using untouched
      simp only [RaiiSocket.step, Option.ite_none_right_eq_some, Option.some.injEq, Prod.mk.injEq] at stepped
      obtain ⟨_, _, rfl⟩ := stepped
      exact ⟨Function.update_of_ne away _ _, rfl, fun _ _ => rfl⟩
  | destroy target answer =>
      have away : object ≠ target := by simpa [Action.touches] using untouched
      simp only [RaiiSocket.step, Option.ite_none_right_eq_some] at stepped
      obtain ⟨_, os, ran, rfl⟩ := perform_eq_some stepped.2
      exact ⟨Function.update_of_ne away _ _, Function.update_of_ne away _ _,
        fun handle => safe.gives_up_frame away ran⟩
  | opensElsewhere created =>
      simp only [RaiiSocket.step] at stepped
      split at stepped
      · contradiction
      rename_i os creates
      simp only [Option.some.injEq, Prod.mk.injEq] at stepped
      obtain ⟨_, rfl⟩ := stepped
      exact ⟨rfl, rfl, fun handle held => safe.create_frame held creates⟩
  | closesElsewhere closed =>
      simp only [RaiiSocket.step, Option.ite_none_right_eq_some, Option.some.injEq, Prod.mk.injEq] at stepped
      obtain ⟨loose, _, rfl⟩ := stepped
      refine ⟨rfl, rfl, fun handle held => ?_⟩
      apply Function.update_of_ne
      rintro rfl
      exact safe.free (.inr loose) object held

/-- A newly opened socket is at the first stage and has no address. -/
theorem opened_os {answer : ReturnValue Handle} {blocking : ErrorCode}
    (stepped : step before (.openSocket object answer blocking) = some (entries, after))
    (held : after.holds object = some handle) : after.os handle = some {} := by
  obtain ⟨_, _, os, ran, rfl⟩ := construct_eq_some stepped
  simp only [State.holds] at held
  rw [Function.comp_update, Function.comp_update, Function.update_self] at held
  obtain ⟨same, valid⟩ := owned_eq_some.mp held
  cases answer with
  | error code => exact absurd same.symm valid
  | ok created =>
      have kept := setBlockingUncached_handle Address { handle := created } true blocking
      have created_eq : created = handle := kept.symm.trans same
      obtain ⟨_, _, rfl⟩ := Os.create_eq_some (create_of_run rfl ran)
      rw [← created_eq]
      exact Function.update_self _ _ _

/-- A move construction changes no socket of the operating system. -/
theorem moveConstruct_holds
    (stepped : step before (.moveConstruct object other) = some (entries, after)) :
    other ≠ object ∧ after.holds object = before.holds other ∧ after.holds other = none ∧
      after.os = before.os := by
  simp only [step, Option.ite_none_right_eq_some] at stepped
  obtain ⟨alive, constructed⟩ := stepped
  obtain ⟨dead, _, os, ran, rfl⟩ := construct_eq_some constructed
  cases ran
  have different : other ≠ object := by
    rintro rfl
    simp [alive] at dead
  refine ⟨different, ?_, ?_, rfl⟩
  · simp [State.holds, RaiiSocket.moveConstruct]
  · simp [State.holds, RaiiSocket.moveConstruct, Function.update_of_ne different]

/-- A move assignment between different objects keeps the socket of the operating system that
moves. -/
theorem Safe.moveAssign_holds {self : Object} {answer : CloseAnswer} (safe : Safe events before)
    (stepped : RaiiSocket.step before (.moveAssign self other answer) = some (entries, after)) :
    after.holds other = none ∧ (other ≠ self → after.holds self = before.holds other ∧
      ∀ handle, before.holds other = some handle → after.os handle = before.os handle) := by
  simp only [RaiiSocket.step, Option.ite_none_right_eq_some] at stepped
  obtain ⟨_, os, ran, rfl⟩ := perform_eq_some stepped.2
  obtain ⟨sameOs, _, _⟩ := abandon_frame before (before.sockets self).handle answer
  change (before.abandon _ answer).os.run ((before.sockets self).close answer).2 = some os at ran
  rw [sameOs, run_close] at ran
  simp only [State.holds]
  rw [handle_moveAssign]
  refine ⟨?_, fun different => ⟨?_, fun handle held => safe.close_frame held different ran⟩⟩
  · by_cases same : other = self
    · simp [same]
    · simp [Function.update_of_ne same]
  · simp [Function.update_of_ne different]

/-- A destroyed object owns nothing. -/
theorem destroy_holds {answer : CloseAnswer}
    (stepped : step before (.destroy object answer) = some (entries, after)) :
    after.holds object = none := by
  simp only [step, Option.ite_none_right_eq_some] at stepped
  obtain ⟨_, os, _, rfl⟩ := perform_eq_some stepped.2
  simp [State.holds, RaiiSocket.close]

omit [DecidableEq Object] in
/-- Only which handles are in use matters for the ownership. -/
theorem Safe.os_congr {os : Os Address} (safe : Safe events before)
    (same : ∀ handle, (os handle).isSome = (before.os handle).isSome) :
    Safe events { before with os := os } where
  owned := safe.owned
  dead := safe.dead
  held := by
    intro object handle held
    rw [same handle]
    exact safe.held object handle held
  loose := by
    intro handle loose
    rw [same handle]
    exact safe.loose handle loose
  reserved := by
    have := same .invalid
    rw [safe.reserved, Option.isSome_none] at this
    exact Option.isNone_iff_eq_none.mp (by simpa using this)

omit [DecidableEq Object] in
/-- Only the handles of the sockets matter for the ownership. -/
theorem Safe.sockets_congr {sockets : Object → RaiiSocket} (safe : Safe events before)
    (same : RaiiSocket.handle ∘ sockets = RaiiSocket.handle ∘ before.sockets) :
    Safe events { before with sockets := sockets } := by
  have holds : ({ before with sockets := sockets } : State Object Address).holds = before.holds := by
    simp only [State.holds, same]
  exact {
    owned := holds ▸ safe.owned
    dead := holds ▸ safe.dead
    held := holds ▸ safe.held
    loose := safe.loose
    reserved := safe.reserved }

end Frame

end MartCommon.Netlib.RaiiSocket
