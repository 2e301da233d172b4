import MartCommon.Netlib.RaiiSocketSafety

namespace MartCommon.Netlib.RaiiSocket

open Library PortLayer

variable {Object Address : Type*} [DecidableEq Object]

/-- Every run keeps the ownership. -/
theorem run_safe {history : List (List (Entry Address))} {state : State Object Address}
    (run : (system Object Address).Run {} history state) : Safe (ledger history) state := by
  apply run.invariant (fun history state => Safe (ledger history) state) safe_initial
  intro history before action entries after safe stepped
  rw [ledger_append]
  exact safe.step stepped

/-- The object that an operation takes the handle out of. -/
def Action.emptied : Action Object → Option Object
  | .release object => some object
  | .close object _ => some object
  | .moveConstruct _ other => some other
  | .moveAssign _ other _ => some other
  | _ => none

/-- An operation that takes the handle out of an object leaves the object without a valid one. -/
theorem emptied_isValid {before after : State Object Address} {action : Action Object}
    {entries : List (Entry Address)} {object : Object}
    (stepped : step before action = some (entries, after))
    (emptied : action.emptied = some object) : (after.sockets object).isValid = false := by
  cases action with
  | release source =>
      cases emptied
      simp only [step, Option.ite_none_right_eq_some, Option.some.injEq, Prod.mk.injEq] at stepped
      obtain ⟨_, _, rfl⟩ := stepped
      simp [RaiiSocket.release, isValid]
  | close source answer =>
      cases emptied
      simp only [step, Option.ite_none_right_eq_some] at stepped
      obtain ⟨_, os, _, rfl⟩ := perform_eq_some stepped.2
      simp [RaiiSocket.close, isValid]
  | moveConstruct target source =>
      cases emptied
      simp only [step, Option.ite_none_right_eq_some] at stepped
      obtain ⟨alive, constructed⟩ := stepped
      obtain ⟨dead, _, os, _, rfl⟩ := construct_eq_some constructed
      have different : object ≠ target := by
        rintro rfl
        simp [alive] at dead
      simp [Function.update_of_ne different, RaiiSocket.moveConstruct, isValid]
  | moveAssign target source answer =>
      cases emptied
      simp only [step, Option.ite_none_right_eq_some] at stepped
      obtain ⟨_, os, _, rfl⟩ := perform_eq_some stepped.2
      have moved := congrFun (handle_moveAssign Address before.sockets target object answer)
        object
      have empty : ((moveAssign before.sockets target object answer :
          (Object → RaiiSocket) × List (Call Address)).1 object).handle = .invalid := by
        apply moved.trans
        by_cases same : object = target
        · simp [same]
        · simp [Function.update_of_ne same]
      rw [isValid_eq, empty]
      rfl
  | default _ | adopt _ _ _ | openSocket _ _ _ | accept _ _ _ _ | destroy _ _ | opensElsewhere _
  | closesElsewhere _ => contradiction

/-- Each handle is held by one object at most and only within its lifetime. Each acquired handle is
closed or released exactly once unless it is still held, and it is closed only while it is held. A
closed, released or moved-from socket is not valid. -/
theorem raiiSocket_ownership {history : List (List (Entry Address))} {state : State Object Address}
    (run : (system Object Address).Run {} history state) :
    (∀ first second handle, state.holds first = some handle → state.holds second = some handle →
      first = second) ∧
    (∀ object, state.alive object = false → state.holds object = none) ∧
    (∀ handle, ∃ held : Bool, (held = true ↔ ∃ object, state.holds object = some handle) ∧
      (ledger history).count (.acquired handle) =
        (ledger history).count (.closed handle) + (ledger history).count (.released handle) +
          held.toNat) ∧
    (∀ handle earlier later, ledger history = earlier ++ .closed handle :: later →
      earlier.count (.acquired handle) =
        earlier.count (.closed handle) + earlier.count (.released handle) + 1) ∧
    ∀ action entries after object, step state action = some (entries, after) →
      action.emptied = some object → (after.sockets object).isValid = false := by
  have safe := run_safe run
  refine ⟨safe.owned.unique, safe.dead, ?_, ?_, fun _ _ _ _ stepped => emptied_isValid stepped⟩
  · intro handle
    obtain ⟨held, tracked, holder⟩ := safe.owned.tracked handle
    have counts := Ownership.track_counts tracked
    exact ⟨held, holder, by simpa using counts⟩
  · intro handle earlier later parts
    obtain ⟨held, tracked, _⟩ := safe.owned.tracked handle
    rw [parts] at tracked
    exact Ownership.track_closed tracked

/-- A socket is opened, moved twice and then moved to itself, which closes its handle. -/
def movedActions : List (Action Bool) :=
  [.openSocket false (.ok ⟨3⟩) ⟨0⟩, .moveConstruct true false, .moveAssign false true ⟨⟨9⟩, false⟩,
    .moveAssign false false ⟨⟨0⟩, false⟩, .destroy false ⟨⟨9⟩, false⟩, .destroy true ⟨⟨9⟩, false⟩]

theorem raiiSocket_ownership_moved : ∃ history state,
    (system Bool Unit).execute {} movedActions = some (history, state) ∧
      ledger history = [.acquired ⟨3⟩, .closed ⟨3⟩] ∧
      ∀ first second handle, state.holds first = some handle → state.holds second = some handle →
        first = second :=
  ⟨_, _, rfl, rfl, (raiiSocket_ownership (StepSystem.run_of_execute movedActions rfl)).1⟩

end MartCommon.Netlib.RaiiSocket
