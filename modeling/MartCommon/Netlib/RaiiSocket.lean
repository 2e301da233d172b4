import MartCommon.Netlib.PortLayer

namespace MartCommon.Netlib

open PortLayer

structure RaiiSocket where
  handle : Handle := .invalid
  isBlocking : Bool := true
  deriving DecidableEq, Repr

namespace RaiiSocket

variable {Address Location : Type*}

/-- `is_valid()` -/
def isValid (socket : RaiiSocket) : Bool := socket.handle != .invalid

/-- `_setBlocking_uncached` -/
def setBlockingUncached (socket : RaiiSocket) (shouldBlock : Bool) (answer : ErrorCode) :
    RaiiSocket × List (Call Address) :=
  (if answer.success then { socket with isBlocking := shouldBlock } else socket,
    [.setBlocking socket.handle shouldBlock answer])

def setBlocking (socket : RaiiSocket) (shouldBlock : Bool) (answer : ErrorCode) :
    RaiiSocket × List (Call Address) :=
  if socket.isBlocking == shouldBlock then (socket, [])
  else socket.setBlockingUncached shouldBlock answer

/-- `RaiiSocket( handle_t )` -/
def ofHandle (handle : Handle) (answer : ErrorCode) : RaiiSocket × List (Call Address) :=
  setBlockingUncached { handle := handle } true answer

/-- `RaiiSocket( Domain, TransportType )` calls `_open`. -/
def openSocket (answer : ReturnValue Handle) (blocking : ErrorCode) :
    RaiiSocket × List (Call Address) :=
  match answer with
  | .ok handle =>
      let (socket, calls) := setBlockingUncached { handle := handle } true blocking
      (socket, .socket answer :: calls)
  | .error _ => ({}, [.socket answer])

/-- `RaiiSocket( RaiiSocket&& )` gives the new socket and what is left of the other one. -/
def moveConstruct (other : RaiiSocket) : RaiiSocket × RaiiSocket :=
  (other, { handle := .invalid, isBlocking := false })

def close (socket : RaiiSocket) (answer : CloseAnswer) : RaiiSocket × List (Call Address) :=
  ({ socket with handle := .invalid }, [.closeSocket socket.handle answer])

def release (socket : RaiiSocket) : Handle × RaiiSocket :=
  (socket.handle, { socket with handle := .invalid })

def accept (socket : RaiiSocket) (answer : ReturnValue Handle) (blocking : ErrorCode) :
    RaiiSocket × List (Call Address) :=
  match answer with
  | .ok handle =>
      let (accepted, calls) := ofHandle handle blocking
      (accepted, .accept socket.handle answer :: calls)
  | .error _ => ({}, [.accept socket.handle answer])

variable [DecidableEq Location]

/-- `std::exchange( other._handle, Invalid )` comes before the write of the result, so that both
locations may be the same. -/
def exchangeHandle (sockets : Location → RaiiSocket) (self other : Location) :
    Location → RaiiSocket :=
  let old := (sockets other).handle
  let sockets := Function.update sockets other { sockets other with handle := .invalid }
  Function.update sockets self { sockets self with handle := old }

/-- `std::exchange( other._is_blocking, true )` -/
def exchangeBlocking (sockets : Location → RaiiSocket) (self other : Location) :
    Location → RaiiSocket :=
  let old := (sockets other).isBlocking
  let sockets := Function.update sockets other { sockets other with isBlocking := true }
  Function.update sockets self { sockets self with isBlocking := old }

/-- `operator=( RaiiSocket&& )` on the sockets in memory. -/
def moveAssign (sockets : Location → RaiiSocket) (self other : Location) (answer : CloseAnswer) :
    (Location → RaiiSocket) × List (Call Address) :=
  let (closed, calls) := (sockets self).close answer
  let sockets := Function.update sockets self closed
  (exchangeBlocking (exchangeHandle sockets self other) self other, calls)

/-- The handle that a socket owns, if it is a valid one. -/
def owned (handle : Handle) : Option Handle := if handle = .invalid then none else some handle

theorem owned_eq_some {handle other : Handle} :
    owned handle = some other ↔ handle = other ∧ other ≠ .invalid := by
  rw [owned, Option.ite_none_left_eq_some, Option.some.injEq]
  constructor
  · rintro ⟨valid, rfl⟩
    exact ⟨rfl, valid⟩
  · rintro ⟨rfl, valid⟩
    exact ⟨valid, rfl⟩

@[simp] theorem owned_invalid : owned .invalid = none := by
  rfl

theorem isValid_eq (socket : RaiiSocket) : socket.isValid = (owned socket.handle).isSome := by
  by_cases invalid : socket.handle = .invalid <;> simp [isValid, owned, invalid]

/-- The blocking mode does not matter for the handle. -/
theorem setBlockingUncached_handle (Address : Type*) (socket : RaiiSocket) (shouldBlock : Bool)
    (answer : ErrorCode) :
    (socket.setBlockingUncached shouldBlock answer : RaiiSocket × List (Call Address)).1.handle =
      socket.handle := by
  unfold setBlockingUncached
  split <;> rfl

theorem setBlocking_handle (Address : Type*) (socket : RaiiSocket) (shouldBlock : Bool)
    (answer : ErrorCode) :
    (socket.setBlocking shouldBlock answer : RaiiSocket × List (Call Address)).1.handle =
      socket.handle := by
  unfold setBlocking
  split
  · rfl
  · exact setBlockingUncached_handle Address socket shouldBlock answer

/-- The handle of the other location moves to the first one and leaves nothing behind. -/
theorem handle_exchangeHandle (sockets : Location → RaiiSocket) (self other : Location) :
    RaiiSocket.handle ∘ exchangeHandle sockets self other =
      Function.update (Function.update (RaiiSocket.handle ∘ sockets) other .invalid) self
        (sockets other).handle := by
  rw [exchangeHandle, Function.comp_update, Function.comp_update]

theorem handle_exchangeBlocking (sockets : Location → RaiiSocket) (self other : Location) :
    RaiiSocket.handle ∘ exchangeBlocking sockets self other = RaiiSocket.handle ∘ sockets := by
  rw [exchangeBlocking, Function.comp_update, Function.comp_update]
  funext location
  by_cases atSelf : location = self
  · subst atSelf
    by_cases same : location = other
    · simp [same]
    · simp [Function.update_of_ne same]
  · by_cases atOther : location = other
    · subst atOther
      simp [Function.update_of_ne atSelf]
    · simp [Function.update_of_ne atSelf, Function.update_of_ne atOther]

/-- After a move assignment the target has the handle that the source had once the target was
closed, and a source of its own is empty. -/
theorem handle_moveAssign (Address : Type*) (sockets : Location → RaiiSocket)
    (self other : Location) (answer : CloseAnswer) :
    RaiiSocket.handle ∘ (moveAssign sockets self other answer :
        (Location → RaiiSocket) × List (Call Address)).1 =
      let closed := Function.update (RaiiSocket.handle ∘ sockets) self .invalid
      Function.update (Function.update closed other .invalid) self (closed other) := by
  simp only [moveAssign, close]
  rw [handle_exchangeBlocking, handle_exchangeHandle, Function.comp_update]
  congr 1
  by_cases same : other = self
  · rw [same, Function.update_self, Function.update_self]
  · rw [Function.update_of_ne same, Function.update_of_ne same]
    rfl

end RaiiSocket

end MartCommon.Netlib
