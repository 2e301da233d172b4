import Mathlib.Logic.Function.Basic

namespace MartCommon.Netlib.PortLayer

/-- `handle_t` wraps the native handle. -/
structure Handle where
  native : Int
  deriving DecidableEq, Repr

/-- `handle_t::Invalid` on POSIX systems. -/
def Handle.invalid : Handle := ⟨-1⟩

structure ErrorCode where
  value : Int
  deriving DecidableEq, Repr

def ErrorCode.noError : ErrorCode := ⟨0⟩

def ErrorCode.success (code : ErrorCode) : Bool := code.value == 0

/-- A value or the code of the error. -/
abbrev ReturnValue (Value : Type*) := Except ErrorCode Value

def ReturnValue.errorCode {Value : Type*} : ReturnValue Value → ErrorCode
  | .ok _ => .noError
  | .error code => code

/-- The operating system may keep a socket open that it could not close. -/
structure CloseAnswer where
  code : ErrorCode
  stillOpen : Bool
  deriving DecidableEq, Repr

/-- How far a stream socket is on its way to accept connections. -/
inductive Stage where
  | opened
  | bound
  | listening
  deriving DecidableEq, Repr

/-- An open socket with the address that its last successful `bind` was given. Which port the operating system
takes for port 0, or where it binds a socket by itself, is not recorded. -/
structure OsSocket (Address : Type*) where
  stage : Stage := .opened
  address : Option Address := none
  deriving DecidableEq, Repr

/-- A call of the port layer, with the answer of the operating system. -/
inductive Call (Address : Type*) where
  | socket (answer : ReturnValue Handle)
  | closeSocket (handle : Handle) (answer : CloseAnswer)
  | accept (handle : Handle) (answer : ReturnValue Handle)
  | bind (handle : Handle) (address : Address) (answer : ErrorCode)
  | listen (handle : Handle) (backlog : Int) (answer : ErrorCode)
  | setBlocking (handle : Handle) (shouldBlock : Bool) (answer : ErrorCode)
  | setTimeout (handle : Handle) (timeout : Int) (answer : ErrorCode)
  | getsockname (handle : Handle) (answer : ReturnValue Address)

/-- The open sockets of the operating system. -/
abbrev Os (Address : Type*) := Handle → Option (OsSocket Address)

namespace Os

variable {Address : Type*}

/-- A new handle is valid and not in use. -/
def create (os : Os Address) (handle : Handle) : Option (Os Address) :=
  if handle ≠ .invalid ∧ os handle = none then some (Function.update os handle (some {})) else none

/-- A handle goes out of use, unless the operating system failed to close it and kept it. -/
def close (os : Os Address) (handle : Handle) (answer : CloseAnswer) : Option (Os Address) :=
  if answer.code.success then
    if (os handle).isSome then some (Function.update os handle none) else none
  else if answer.stillOpen then some os
  else some (Function.update os handle none)

/-- The effect of a call, or nothing where the operating system never gives the answer. A `bind` succeeds for
unbound sockets only, and the address that it was given is kept. -/
def apply (os : Os Address) : Call Address → Option (Os Address)
  | .socket (.ok handle) => os.create handle
  | .accept _ (.ok handle) => os.create handle
  | .closeSocket handle answer => os.close handle answer
  | .bind handle address answer =>
      if answer.success then
        match os handle with
        | some ⟨.opened, _⟩ => some (Function.update os handle (some ⟨.bound, some address⟩))
        | _ => none
      else some os
  | .listen handle _ answer =>
      if answer.success then
        match os handle with
        | some socket => some (Function.update os handle (some { socket with stage := .listening }))
        | none => none
      else some os
  | .socket (.error _) | .accept _ (.error _) | .setBlocking .. | .setTimeout .. | .getsockname .. =>
      some os

/-- The effect of calls, one after the other. -/
def run (os : Os Address) : List (Call Address) → Option (Os Address)
  | [] => some os
  | call :: rest =>
      match os.apply call with
      | none => none
      | some next => run next rest

/-- A new socket changes its handle only, which was free. -/
theorem create_eq_some {os after : Os Address} {handle : Handle} (created : os.create handle = some after) :
    handle ≠ .invalid ∧ os handle = none ∧ after = Function.update os handle (some {}) := by
  simp only [create, Option.ite_none_right_eq_some, Option.some.injEq] at created
  exact ⟨created.1.1, created.1.2, created.2.symm⟩

/-- A call to close changes its handle only. -/
theorem close_eq_some {os after : Os Address} {handle : Handle} {answer : CloseAnswer}
    (closed : os.close handle answer = some after) :
    ∀ other, other ≠ handle → after other = os other := by
  intro other different
  unfold close at closed
  split at closed
  · rw [Option.ite_none_right_eq_some, Option.some.injEq] at closed
    rw [← closed.2, Function.update_of_ne different]
  · split at closed
    · cases closed
      rfl
    · cases closed
      rw [Function.update_of_ne different]

end Os

end MartCommon.Netlib.PortLayer
