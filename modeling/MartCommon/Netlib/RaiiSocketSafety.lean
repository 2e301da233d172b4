import MartCommon.Netlib.RaiiSocketSystem

namespace MartCommon.Netlib.RaiiSocket

open Library PortLayer

variable {Object Address : Type*} [DecidableEq Object]

/-- Objects own open handles, loose handles are open and have no owner, and objects outside of their
lifetime own nothing. -/
structure Safe (events : List (Ownership.Event Handle)) (state : State Object Address) : Prop where
  owned : Ownership.Owned events state.holds
  dead : ∀ object, state.alive object = false → state.holds object = none
  held : ∀ object handle, state.holds object = some handle →
    (state.os handle).isSome = true ∧ state.loose handle = false
  loose : ∀ handle, state.loose handle = true → (state.os handle).isSome = true
  reserved : state.os .invalid = none

omit [DecidableEq Object] in
theorem safe_initial : Safe [] ({} : State Object Address) where
  owned := Ownership.owned_initial
  dead := fun _ _ => rfl
  held := by
    intro object handle held
    contradiction
  loose := by simp
  reserved := rfl

omit [DecidableEq Object] in
/-- A handle that is not in use, or that is loose, has no owner. -/
theorem Safe.free {events : List (Ownership.Event Handle)} {state : State Object Address}
    (safe : Safe events state) {handle : Handle}
    (unowned : state.os handle = none ∨ state.loose handle = true) (object : Object) :
    state.holds object ≠ some handle := by
  intro held
  obtain ⟨opened, tight⟩ := safe.held object handle held
  rcases unowned with closed | loose
  · simp [closed] at opened
  · simp [tight] at loose

/-- A new object owns a handle that had no owner. -/
theorem Safe.acquire {events : List (Ownership.Event Handle)} {before after : State Object Address}
    {object : Object} {handle : Handle} (safe : Safe events before)
    (empty : before.holds object = none) (free : ∀ other, before.holds other ≠ some handle)
    (holds : after.holds = Function.update before.holds object (some handle))
    (alive : after.alive = Function.update before.alive object true)
    (valid : handle ≠ .invalid) (opened : (after.os handle).isSome = true)
    (frame : ∀ other, other ≠ handle → after.os other = before.os other)
    (loose : after.loose = Function.update before.loose handle false) :
    Safe (events ++ [.acquired handle]) after where
  owned := holds ▸ safe.owned.acquire free empty
  dead := by
    intro other dead
    by_cases same : other = object
    · simp [alive, same] at dead
    · rw [alive, Function.update_of_ne same] at dead
      rw [holds, Function.update_of_ne same]
      exact safe.dead other dead
  held := by
    intro other handle' held
    by_cases same : other = object
    · rw [holds, same, Function.update_self, Option.some.injEq] at held
      subst held
      exact ⟨opened, by simp [loose]⟩
    · rw [holds, Function.update_of_ne same] at held
      have different : handle' ≠ handle := by
        rintro rfl
        exact free other held
      rw [frame handle' different, loose, Function.update_of_ne different]
      exact safe.held other handle' held
  loose := by
    intro other isLoose
    by_cases same : other = handle
    · simp [loose, same] at isLoose
    · rw [loose, Function.update_of_ne same] at isLoose
      rw [frame other same]
      exact safe.loose other isLoose
  reserved := by
    rw [frame _ valid.symm]
    exact safe.reserved

/-- An object gives up what it owns, and nothing happens to other handles. -/
theorem Safe.vacate {events : List (Ownership.Event Handle)} {before after : State Object Address}
    {object : Object} {disposal : Handle → Ownership.Event Handle} (safe : Safe events before)
    (disposes : ∀ handle, disposal handle = .closed handle ∨ disposal handle = .released handle)
    (holds : after.holds = Function.update before.holds object none)
    (alive : ∀ other, after.alive other = false → before.alive other = false ∨ other = object)
    (frame : ∀ handle, before.holds object ≠ some handle →
      after.os handle = before.os handle ∧ after.loose handle = before.loose handle)
    (kept : ∀ handle, before.holds object = some handle → after.loose handle = true →
      (after.os handle).isSome = true) :
    Safe (events ++ (before.holds object).toList.map disposal) after where
  owned := by
    rw [holds]
    cases held : before.holds object with
    | none =>
        have same : Function.update before.holds object none = before.holds := by
          rw [← held, Function.update_eq_self]
        simpa [same] using safe.owned
    | some handle => exact safe.owned.dispose held (disposes handle)
  dead := by
    intro other dead
    by_cases same : other = object
    · simp [holds, same]
    · rw [holds, Function.update_of_ne same]
      exact safe.dead other ((alive other dead).resolve_right same)
  held := by
    intro other handle held
    by_cases same : other = object
    · simp [holds, same] at held
    · rw [holds, Function.update_of_ne same] at held
      have elsewhere : before.holds object ≠ some handle := by
        intro shared
        exact same (safe.owned.unique other object handle held shared)
      obtain ⟨sameOs, sameLoose⟩ := frame handle elsewhere
      rw [sameOs, sameLoose]
      exact safe.held other handle held
  loose := by
    intro handle isLoose
    by_cases held : before.holds object = some handle
    · exact kept handle held isLoose
    · obtain ⟨sameOs, sameLoose⟩ := frame handle held
      rw [sameLoose] at isLoose
      rw [sameOs]
      exact safe.loose handle isLoose
  reserved := by
    have elsewhere : before.holds object ≠ some .invalid := by
      intro held
      exact (owned_eq_some.mp held).2 rfl
    rw [(frame .invalid elsewhere).1]
    exact safe.reserved

/-- What an object owns moves to an empty one. -/
theorem Safe.move {events : List (Ownership.Event Handle)} {before after : State Object Address}
    {target : Object} (source : Object) (safe : Safe events before)
    (empty : before.holds target = none)
    (holds : after.holds =
      Function.update (Function.update before.holds source none) target (before.holds source))
    (alive : ∀ other, after.alive other = false → before.alive other = false ∧ other ≠ target)
    (os : after.os = before.os) (loose : after.loose = before.loose) : Safe events after where
  owned := holds ▸ safe.owned.move empty
  dead := by
    intro other dead
    obtain ⟨deadBefore, away⟩ := alive other dead
    rw [holds, Function.update_of_ne away]
    by_cases from_ : other = source
    · simp [from_]
    · rw [Function.update_of_ne from_]
      exact safe.dead other deadBefore
  held := by
    intro other handle held
    rw [os, loose]
    by_cases at_ : other = target
    · rw [holds, at_, Function.update_self] at held
      exact safe.held source handle held
    · rw [holds, Function.update_of_ne at_] at held
      by_cases from_ : other = source
      · simp [from_] at held
      · rw [Function.update_of_ne from_] at held
        exact safe.held other handle held
  loose := by
    rw [os, loose]
    exact safe.loose
  reserved := by
    rw [os]
    exact safe.reserved

/-- A construction runs its calls and stores the socket in an object outside of its lifetime. -/
theorem construct_eq_some {before after : State Object Address} {object : Object}
    {socket : RaiiSocket} {calls : List (Call Address)} {entries : List (Entry Address)}
    (constructed : before.construct object socket calls = some (entries, after)) :
    before.alive object = false ∧ entries = calls.map .call ∧
      ∃ os, before.os.run calls = some os ∧ after = { before with
        os := os
        alive := Function.update before.alive object true
        sockets := Function.update before.sockets object socket } := by
  simp only [State.construct, State.perform, Option.ite_none_left_eq_some,
    Bool.not_eq_true] at constructed
  obtain ⟨dead, performed⟩ := constructed
  split at performed
  · contradiction
  · rename_i os ran
    simp only [Option.some.injEq, Prod.mk.injEq] at performed
    exact ⟨dead, performed.1.symm, os, ran, performed.2.symm⟩

omit [DecidableEq Object] in
/-- Calls that set the blocking mode have no effect on the sockets of the operating system. -/
theorem run_setBlockingUncached (os : Os Address) (socket : RaiiSocket) (shouldBlock : Bool)
    (answer : ErrorCode) :
    os.run (socket.setBlockingUncached shouldBlock answer).2 = some os := by
  rfl

/-- A construction without a handle leaves all owners as they are. -/
theorem Safe.constructEmpty {events : List (Ownership.Event Handle)}
    {before after : State Object Address} {object : Object} {socket : RaiiSocket}
    (safe : Safe events before) (dead : before.alive object = false)
    (empty : socket.handle = .invalid)
    (same : after = { before with
      alive := Function.update before.alive object true
      sockets := Function.update before.sockets object socket }) : Safe events after := by
  have unchanged : after.holds = before.holds := by
    rw [same]
    simp only [State.holds]
    rw [Function.comp_update, Function.comp_update, empty, owned_invalid, ← safe.dead object dead]
    exact Function.update_eq_self object _
  subst same
  exact {
    owned := unchanged ▸ safe.owned
    dead := by
      intro other deadAfter
      rw [unchanged]
      by_cases at_ : other = object
      · rw [at_]
        exact safe.dead object dead
      · exact safe.dead other (by simpa [at_] using deadAfter)
    held := by
      rw [unchanged]
      exact safe.held
    loose := safe.loose
    reserved := safe.reserved }

/-- A call that creates a handle, followed by one for its blocking mode, creates the handle. -/
theorem create_of_run {os after : Os Address} {call : Call Address} {handle : Handle}
    {blocking : ErrorCode}
    (creates : os.apply call = os.create handle)
    (ran : os.run (call :: (ofHandle handle blocking).2) = some after) :
    os.create handle = some after := by
  rw [Os.run, creates] at ran
  cases made : os.create handle with
  | none => simp [made] at ran
  | some next =>
      simp only [made, ofHandle, run_setBlockingUncached] at ran
      exact ran

/-- A construction with a call that creates a handle acquires the handle, also when its blocking
mode cannot be set. -/
theorem Safe.constructHandle {events : List (Ownership.Event Handle)}
    {before : State Object Address} {os : Os Address} {object : Object} {call : Call Address}
    {handle : Handle} {blocking : ErrorCode} (safe : Safe events before)
    (dead : before.alive object = false) (creates : before.os.apply call = before.os.create handle)
    (acquires : Entry.ownership (.call call) = some (.acquired handle))
    (ran : before.os.run (call :: (ofHandle handle blocking).2) = some os) :
    Safe (events ++ ((call :: (ofHandle handle blocking).2).map .call).filterMap Entry.ownership)
      { before with
        os := os
        alive := Function.update before.alive object true
        sockets := Function.update before.sockets object
          (ofHandle handle blocking : RaiiSocket × List (Call Address)).1 } := by
  have created := create_of_run creates ran
  obtain ⟨valid, unused, opened⟩ := Os.create_eq_some created
  have tight : before.loose handle = false := by
    by_contra loose
    have := safe.loose handle (by simpa using loose)
    simp [unused] at this
  have acquired : ((call :: (ofHandle handle blocking).2).map .call).filterMap Entry.ownership =
      [.acquired handle] := by
    rw [List.map_cons, List.filterMap_cons, acquires]
    rfl
  rw [acquired]
  refine safe.acquire (safe.dead object dead) (safe.free (.inl unused)) ?_ rfl valid ?_ ?_ ?_
  · simp only [State.holds]
    rw [Function.comp_update, Function.comp_update, ofHandle, setBlockingUncached_handle,
      RaiiSocket.owned, if_neg valid]
  · simp [opened]
  · intro other different
    simp only [opened]
    exact Function.update_of_ne different _ _
  · rw [← tight, Function.update_eq_self]

omit [DecidableEq Object] in
/-- Only a handle that stays open after a failed call becomes loose. -/
theorem abandon_loose {state : State Object Address} {handle other : Handle} {answer : CloseAnswer} :
    (state.abandon handle answer).loose other = true ↔ state.loose other = true ∨
      other = handle ∧ handle ≠ .invalid ∧ answer.code.success = false ∧ answer.stillOpen = true := by
  unfold State.abandon
  split
  · rename_i abandoned
    by_cases same : other = handle
    · simp [same, abandoned]
    · simp [same]
  · rename_i kept
    simp [kept]

/-- A call to close takes the handle from its owner, also when it fails. -/
theorem Safe.closed {events : List (Ownership.Event Handle)} {before after : State Object Address}
    {object : Object} {answer : CloseAnswer} (safe : Safe events before)
    (closed : before.os.close (before.sockets object).handle answer = some after.os)
    (holds : after.holds = Function.update before.holds object none)
    (alive : ∀ other, after.alive other = false → before.alive other = false ∨ other = object)
    (loose : after.loose = (before.abandon (before.sockets object).handle answer).loose) :
    Safe (events ++ (before.holds object).toList.map .closed) after := by
  refine safe.vacate (fun _ => .inl rfl) holds alive ?_ ?_
  · intro handle elsewhere
    have sameLoose : after.loose handle = before.loose handle := by
      rw [Bool.eq_iff_iff, loose, abandon_loose, or_iff_left]
      rintro ⟨same, valid, _⟩
      exact elsewhere (owned_eq_some.mpr ⟨same.symm, same ▸ valid⟩)
    refine ⟨?_, sameLoose⟩
    by_cases same : handle = (before.sockets object).handle
    · have invalid : handle = .invalid := by
        by_contra valid
        exact elsewhere (owned_eq_some.mpr ⟨same.symm, valid⟩)
      rw [← same, invalid] at closed
      rw [invalid]
      unfold Os.close at closed
      simp only [safe.reserved, Option.isSome_none, Bool.false_eq_true, ↓reduceIte] at closed
      split at closed
      · contradiction
      · split at closed
        · rw [← Option.some.inj closed]
        · rw [← Option.some.inj closed, Function.update_self, safe.reserved]
    · exact Os.close_eq_some closed handle same
  · intro handle held isLoose
    obtain ⟨opened, tight⟩ := safe.held object handle held
    rw [loose, abandon_loose, tight] at isLoose
    obtain ⟨same, _, failed, stillOpen⟩ := isLoose.resolve_left (by simp)
    rw [← same] at closed
    simp only [Os.close, failed, stillOpen, Bool.false_eq_true, ↓reduceIte,
      Option.some.injEq] at closed
    rw [← closed]
    exact opened

/-- The entry of a call to close is an event of the owner, if there is one. -/
theorem ownership_close (socket : RaiiSocket) (answer : CloseAnswer) :
    ((socket.close answer : RaiiSocket × List (Call Address)).2.map Entry.call).filterMap
      Entry.ownership = (owned socket.handle).toList.map .closed := by
  by_cases invalid : socket.handle = .invalid <;>
    simp [RaiiSocket.close, Entry.ownership, owned, invalid]

omit [DecidableEq Object] in
/-- Performing calls changes the sockets of the operating system and the objects. -/
theorem perform_eq_some {before after : State Object Address} {sockets : Object → RaiiSocket}
    {calls : List (Call Address)} {entries : List (Entry Address)}
    (performed : before.perform sockets calls = some (entries, after)) :
    entries = calls.map .call ∧ ∃ os, before.os.run calls = some os ∧
      after = { before with os := os, sockets := sockets } := by
  unfold State.perform at performed
  split at performed
  · contradiction
  · rename_i os ran
    simp only [Option.some.injEq, Prod.mk.injEq] at performed
    exact ⟨performed.1.symm, os, ran, performed.2.symm⟩

/-- A single call to close runs as the operating system closes the handle. -/
theorem run_close (os : Os Address) (socket : RaiiSocket) (answer : CloseAnswer) :
    os.run (socket.close answer).2 = os.close socket.handle answer := by
  simp only [RaiiSocket.close, Os.run, Os.apply]
  cases os.close socket.handle answer <;> rfl

omit [DecidableEq Object] in
theorem abandon_frame (state : State Object Address) (handle : Handle) (answer : CloseAnswer) :
    (state.abandon handle answer).os = state.os ∧
      (state.abandon handle answer).alive = state.alive ∧
      (state.abandon handle answer).sockets = state.sockets := by
  unfold State.abandon
  split <;> exact ⟨rfl, rfl, rfl⟩

section Steps

variable {events : List (Ownership.Event Handle)} {before after : State Object Address}
  {entries : List (Entry Address)} {object other self : Object} {handle : Handle}

/-- A socket object that is left empty adds no event. -/
theorem Safe.default (safe : Safe events before)
    (stepped : step before (.default object) = some (entries, after)) :
    Safe (events ++ entries.filterMap Entry.ownership) after := by
  obtain ⟨dead, rfl, os, ran, rfl⟩ := construct_eq_some stepped
  cases ran
  change Safe (events ++ []) _
  rw [List.append_nil]
  exact safe.constructEmpty dead rfl rfl

/-- A created handle is acquired, also when its blocking mode cannot be set. -/
theorem Safe.openSocket {answer : ReturnValue Handle} {blocking : ErrorCode}
    (safe : Safe events before)
    (stepped : step before (.openSocket object answer blocking) = some (entries, after)) :
    Safe (events ++ entries.filterMap Entry.ownership) after := by
  obtain ⟨dead, rfl, os, ran, rfl⟩ := construct_eq_some stepped
  cases answer with
  | error code =>
      cases ran
      change Safe (events ++ []) _
      rw [List.append_nil]
      exact safe.constructEmpty dead rfl rfl
  | ok handle => exact safe.constructHandle dead rfl rfl ran

/-- An accepted handle is acquired as a created one. -/
theorem Safe.accept {listener : Object} {answer : ReturnValue Handle} {blocking : ErrorCode}
    (safe : Safe events before)
    (stepped : step before (.accept object listener answer blocking) = some (entries, after)) :
    Safe (events ++ entries.filterMap Entry.ownership) after := by
  simp only [step, Option.ite_none_right_eq_some] at stepped
  obtain ⟨dead, rfl, os, ran, rfl⟩ := construct_eq_some stepped.2
  cases answer with
  | error code =>
      cases ran
      change Safe (events ++ []) _
      rw [List.append_nil]
      exact safe.constructEmpty dead rfl rfl
  | ok handle => exact safe.constructHandle dead rfl rfl ran

/-- An adopted handle was loose and has an owner then. -/
theorem Safe.adopt {blocking : ErrorCode} (safe : Safe events before)
    (stepped : step before (.adopt object handle blocking) = some (entries, after)) :
    Safe (events ++ entries.filterMap Entry.ownership) after := by
  simp only [step, Option.ite_none_right_eq_some] at stepped
  obtain ⟨allowed, constructed⟩ := stepped
  split at constructed
  · contradiction
  rename_i rest final built
  simp only [Option.some.injEq, Prod.mk.injEq] at constructed
  obtain ⟨rfl, rfl⟩ := constructed
  obtain ⟨dead, rfl, os, ran, rfl⟩ := construct_eq_some built
  cases ran
  by_cases invalid : handle = .invalid
  · subst invalid
    have tight : before.loose .invalid = false := by
      by_contra loose
      have := safe.loose .invalid (by simpa using loose)
      simp [safe.reserved] at this
    change Safe (events ++ []) _
    rw [List.append_nil, ← tight, Function.update_eq_self]
    exact safe.constructEmpty dead (setBlockingUncached_handle Address _ _ _) rfl
  · have loose := allowed.resolve_left invalid
    have events' : (.adopted handle :: (ofHandle handle blocking).2.map .call :
        List (Entry Address)).filterMap Entry.ownership = [.acquired handle] := by
      simp [ofHandle, setBlockingUncached, Entry.ownership, invalid]
    rw [events']
    refine safe.acquire (safe.dead object dead) (safe.free (.inr loose)) ?_ rfl invalid
      (safe.loose handle loose) (fun _ _ => rfl) rfl
    simp only [State.holds]
    rw [Function.comp_update, Function.comp_update, ofHandle, setBlockingUncached_handle,
      RaiiSocket.owned, if_neg invalid]

/-- The new object owns what the other one owned. -/
theorem Safe.moveConstruct (safe : Safe events before)
    (stepped : step before (.moveConstruct object other) = some (entries, after)) :
    Safe (events ++ entries.filterMap Entry.ownership) after := by
  simp only [step, Option.ite_none_right_eq_some] at stepped
  obtain ⟨dead, rfl, os, ran, rfl⟩ := construct_eq_some stepped.2
  cases ran
  change Safe (events ++ []) _
  rw [List.append_nil]
  refine safe.move other (safe.dead object dead) ?_ ?_ rfl rfl
  · simp only [State.holds]
    rw [Function.comp_update, Function.comp_update, Function.comp_update, Function.comp_update]
    rfl
  · intro present deadAfter
    by_cases same : present = object
    · simp [same] at deadAfter
    · exact ⟨by simpa [same] using deadAfter, same⟩

/-- An object that is closed owns nothing. -/
theorem Safe.close {answer : CloseAnswer} (safe : Safe events before)
    (stepped : step before (.close object answer) = some (entries, after)) :
    Safe (events ++ entries.filterMap Entry.ownership) after := by
  simp only [step, Option.ite_none_right_eq_some] at stepped
  obtain ⟨rfl, os, ran, rfl⟩ := perform_eq_some stepped.2
  obtain ⟨sameOs, sameAlive, _⟩ := abandon_frame before (before.sockets object).handle answer
  rw [sameOs, run_close] at ran
  rw [ownership_close]
  refine safe.closed ran ?_ ?_ rfl
  · simp only [State.holds]
    rw [Function.comp_update, Function.comp_update]
    rfl
  · intro present deadAfter
    simp only [sameAlive] at deadAfter
    exact .inl deadAfter

/-- The destructor closes the object. -/
theorem Safe.destroy {answer : CloseAnswer} (safe : Safe events before)
    (stepped : step before (.destroy object answer) = some (entries, after)) :
    Safe (events ++ entries.filterMap Entry.ownership) after := by
  simp only [step, Option.ite_none_right_eq_some] at stepped
  obtain ⟨rfl, os, ran, rfl⟩ := perform_eq_some stepped.2
  obtain ⟨sameOs, sameAlive, _⟩ := abandon_frame before (before.sockets object).handle answer
  simp only [sameOs, run_close] at ran
  rw [ownership_close]
  refine safe.closed ran ?_ ?_ rfl
  · simp only [State.holds]
    rw [Function.comp_update, Function.comp_update]
    rfl
  · intro present deadAfter
    by_cases same : present = object
    · exact .inr same
    · exact .inl (by simpa [same] using deadAfter)

/-- The target closes its own handle first, so that a self move leaves nothing. -/
theorem Safe.moveAssign {answer : CloseAnswer} (safe : Safe events before)
    (stepped : step before (.moveAssign self other answer) = some (entries, after)) :
    Safe (events ++ entries.filterMap Entry.ownership) after := by
  simp only [step, Option.ite_none_right_eq_some] at stepped
  obtain ⟨⟨aliveSelf, _⟩, performed⟩ := stepped
  obtain ⟨rfl, os, ran, rfl⟩ := perform_eq_some performed
  obtain ⟨sameOs, sameAlive, _⟩ := abandon_frame before (before.sockets self).handle answer
  change (before.abandon _ answer).os.run ((before.sockets self).close answer).2 = some os at ran
  rw [sameOs, run_close] at ran
  change Safe (events ++ (((before.sockets self).close answer).2.map .call).filterMap
    Entry.ownership) _
  rw [ownership_close]
  let emptied : State Object Address := { before.abandon (before.sockets self).handle answer with
    os := os
    sockets := Function.update before.sockets self { before.sockets self with handle := .invalid } }
  have holds : emptied.holds = Function.update before.holds self none := by
    simp only [State.holds, emptied]
    rw [Function.comp_update, Function.comp_update]
    rfl
  have closed : Safe (events ++ (before.holds self).toList.map .closed) emptied := by
    refine safe.closed ran holds ?_ rfl
    intro present deadAfter
    simp only [emptied, sameAlive] at deadAfter
    exact .inl deadAfter
  refine closed.move other (by rw [holds, Function.update_self]) ?_ ?_ rfl rfl
  · rw [holds]
    simp only [State.holds]
    rw [handle_moveAssign, Function.comp_update, Function.comp_update, Function.comp_update,
      owned_invalid]
    congr 1
    by_cases same : other = self
    · simp [same]
    · simp [Function.update_of_ne same]
  · intro present deadAfter
    refine ⟨deadAfter, ?_⟩
    rintro rfl
    simp only [sameAlive, aliveSelf] at deadAfter
    contradiction

/-- A released handle is loose. -/
theorem Safe.release (safe : Safe events before)
    (stepped : step before (.release object) = some (entries, after)) :
    Safe (events ++ entries.filterMap Entry.ownership) after := by
  simp only [step, Option.ite_none_right_eq_some, Option.some.injEq, Prod.mk.injEq] at stepped
  obtain ⟨_, rfl, rfl⟩ := stepped
  have events' : ([.released (before.sockets object).release.1] : List (Entry Address)).filterMap
      Entry.ownership = (before.holds object).toList.map .released := by
    by_cases invalid : (before.sockets object).handle = .invalid <;>
      simp [RaiiSocket.release, Entry.ownership, State.holds, RaiiSocket.owned, invalid]
  rw [events']
  refine safe.vacate (fun _ => .inr rfl) ?_ (fun _ => .inl) ?_ ?_
  · simp only [State.holds]
    rw [Function.comp_update, Function.comp_update]
    rfl
  · intro handle elsewhere
    refine ⟨rfl, ?_⟩
    by_cases invalid : (before.sockets object).release.1 = .invalid
    · simp only [invalid, ↓reduceIte]
    · simp only [invalid, ↓reduceIte]
      apply Function.update_of_ne
      rintro rfl
      exact elsewhere (owned_eq_some.mpr ⟨rfl, invalid⟩)
  · intro handle held _
    exact (safe.held object handle held).1

/-- The rest of the program opens sockets that no object owns. -/
theorem Safe.opensElsewhere (safe : Safe events before)
    (stepped : step before (.opensElsewhere handle) = some (entries, after)) :
    Safe (events ++ entries.filterMap Entry.ownership) after := by
  simp only [step] at stepped
  split at stepped
  · contradiction
  rename_i os created
  simp only [Option.some.injEq, Prod.mk.injEq] at stepped
  obtain ⟨rfl, rfl⟩ := stepped
  obtain ⟨valid, unused, rfl⟩ := Os.create_eq_some created
  rw [List.filterMap_nil, List.append_nil]
  exact {
    owned := safe.owned
    dead := safe.dead
    held := by
      intro present other held
      have different : other ≠ handle := by
        rintro rfl
        exact safe.free (.inl unused) present held
      simp only [Function.update_of_ne different]
      exact safe.held present other held
    loose := by
      intro other loose
      by_cases same : other = handle
      · simp [same]
      · simp only [Function.update_of_ne same] at loose ⊢
        exact safe.loose other loose
    reserved := by
      simp only [Function.update_of_ne valid.symm]
      exact safe.reserved }

/-- The rest of the program closes loose handles only. -/
theorem Safe.closesElsewhere (safe : Safe events before)
    (stepped : step before (.closesElsewhere handle) = some (entries, after)) :
    Safe (events ++ entries.filterMap Entry.ownership) after := by
  simp only [step, Option.ite_none_right_eq_some, Option.some.injEq, Prod.mk.injEq] at stepped
  obtain ⟨loose, rfl, rfl⟩ := stepped
  rw [List.filterMap_nil, List.append_nil]
  exact {
    owned := safe.owned
    dead := safe.dead
    held := by
      intro present other held
      have different : other ≠ handle := by
        rintro rfl
        exact safe.free (.inr loose) present held
      simp only [Function.update_of_ne different]
      exact safe.held present other held
    loose := by
      intro other stillLoose
      by_cases same : other = handle
      · simp [same] at stillLoose
      · simp only [Function.update_of_ne same] at stillLoose ⊢
        exact safe.loose other stillLoose
    reserved := by
      by_cases same : Handle.invalid = handle
      · simp [same]
      · simp only [Function.update_of_ne same]
        exact safe.reserved }

/-- Every operation keeps the ownership. -/
theorem Safe.step {action : Action Object} (safe : Safe events before)
    (stepped : step before action = some (entries, after)) :
    Safe (events ++ entries.filterMap Entry.ownership) after := by
  cases action with
  | default object => exact safe.default stepped
  | adopt object handle blocking => exact safe.adopt stepped
  | openSocket object answer blocking => exact safe.openSocket stepped
  | accept object listener answer blocking => exact safe.accept stepped
  | moveConstruct object other => exact safe.moveConstruct stepped
  | moveAssign self other answer => exact safe.moveAssign stepped
  | close object answer => exact safe.close stepped
  | release object => exact safe.release stepped
  | destroy object answer => exact safe.destroy stepped
  | opensElsewhere handle => exact safe.opensElsewhere stepped
  | closesElsewhere handle => exact safe.closesElsewhere stepped

end Steps

end MartCommon.Netlib.RaiiSocket
