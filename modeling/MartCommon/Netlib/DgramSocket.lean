import MartCommon.Netlib.TcpSend

namespace MartCommon.Netlib

open Common Library PortLayer

/-- What `::recv` answers: a datagram with its number of bytes, and the old value in `errno`, or -1 with
an error in `errno`. -/
inductive RecvAnswer where
  | datagram (length : Nat) (errno : ErrorCode)
  | failed (code : ErrorCode)
  deriving DecidableEq, Repr

namespace PortLayer

/-- `ErrorCodeValues::TryAgain` on Linux -/
def ErrorCode.tryAgain : ErrorCode := ⟨11⟩

/-- `ErrorCodeValues::WouldBlock` on Linux -/
def ErrorCode.wouldBlock : ErrorCode := ⟨11⟩

/-- `port_layer::recv`. The operating system cuts a datagram to the length of the buffer. -/
def recv (answer : RecvAnswer) (buf : ArrayView) : ReturnValue Int :=
  match answer with
  | .datagram length errno =>
      makeReturnValue (IntType.int.convert (min length (toNativeBufLen buf.size) : Nat)) errno
  | .failed code => makeReturnValue (-1) code

end PortLayer

/-- `RaiiSocket::RecvResult` -/
structure RecvResult where
  receivedData : ArrayView
  result : ReturnValue Int

/-- The operating system says that no datagram is left. -/
def RecvAnswer.reportsEmpty : RecvAnswer → Bool
  | .datagram .. => false
  | .failed code => code == .tryAgain || code == .wouldBlock

def RecvAnswer.isDatagram : RecvAnswer → Bool
  | .datagram .. => true
  | .failed _ => false

namespace RaiiSocket

/-- `RaiiSocket::recv` ends the program when `subview` does. -/
def recv (answer : RecvAnswer) (buffer : ArrayView) : Option RecvResult :=
  let res := PortLayer.recv answer buffer
  match res with
  | .ok value => (buffer.subview 0 (BitVec.ofInt 64 value)).map fun received => ⟨received, res⟩
  | .error _ => some ⟨{}, res⟩

/-- `is_blocking()` -/
def isBlockingMode (socket : RaiiSocket) : Bool := socket.isBlocking && socket.isValid

/-- What `set_blocking` returns. -/
def setBlockingResult (socket : RaiiSocket) (shouldBlock : Bool) (answer : ErrorCode) : ErrorCode :=
  if socket.isBlocking == shouldBlock then .noError else answer

end RaiiSocket

namespace DgramSocket

/-- The member `_was_blocking` of a `BlockingRestorer`. Its member `_socket` refers to the socket. -/
structure BlockingRestorer where
  wasBlocking : Bool

def BlockingRestorer.construct (socket : RaiiSocket) : BlockingRestorer := ⟨socket.isBlockingMode⟩

/-- `~BlockingRestorer()` -/
def BlockingRestorer.destruct {Address : Type*} (r : BlockingRestorer) (socket : RaiiSocket)
    (answer : ErrorCode) : RaiiSocket × List (Call Address) :=
  socket.setBlocking r.wasBlocking answer

/-- How a call of `clearRxBuff` ends. It is still running where the answers end before it does. -/
inductive ClearOutcome where
  | returned
  | thrown (message : Text)
  | terminated
  | running
  deriving DecidableEq

/-- The end of the call for its caller. -/
def ClearOutcome.exits : ClearOutcome → Bool
  | .returned | .thrown _ => true
  | .terminated | .running => false

/-- The loop of `clearRxBuff`, with the answers that it took. -/
def drain (buffer : ArrayView) : List RecvAnswer → List RecvAnswer × ClearOutcome
  | [] => ([], .running)
  | answer :: rest =>
      match RaiiSocket.recv answer buffer with
      | none => ([answer], .terminated)
      | some received =>
          match received.result with
          | .ok _ =>
              let (taken, outcome) := drain buffer rest
              (answer :: taken, outcome)
          | .error _ => ([answer], .returned)

/-- `uint64_t buffer[8]` as bytes -/
def bufferView : ArrayView := ⟨⟨some 0, 0⟩, 64⟩

/-- What a call leaves behind: the socket, the calls that set its mode, and the answers it took. -/
structure Cleared (Address : Type*) where
  socket : RaiiSocket
  calls : List (Call Address)
  taken : List RecvAnswer
  outcome : ClearOutcome

/-- The destructor of the restorer runs when the function is left. -/
def leave {Address : Type*} (r : BlockingRestorer) (restoring : ErrorCode) (run : Cleared Address) :
    Cleared Address :=
  if run.outcome.exits then
    let (socket, calls) := r.destruct run.socket restoring
    { run with socket := socket, calls := run.calls ++ calls }
  else run

/-- What `clearRxBuff` does once the restorer is there. -/
def clearing {Address : Type*} (socket : RaiiSocket) (setting : ErrorCode) (answers : List RecvAnswer) :
    Cleared Address :=
  let res := socket.setBlockingResult false setting
  let (socket, calls) := socket.setBlocking false setting
  if res.success then
    let (taken, outcome) := drain bufferView answers
    ⟨socket, calls, taken, outcome⟩
  else
    ⟨socket, calls, [], .thrown (ascii "Failed to set socket in non-blocking mode for ex cleanup")⟩

/-- `clearRxBuff()` with the answers to both changes of the mode and to the calls of `::recv`. -/
def clearRxBuff {Address : Type*} (socket : RaiiSocket) (setting restoring : ErrorCode)
    (answers : List RecvAnswer) : Cleared Address :=
  leave (.construct socket) restoring (clearing socket setting answers)

/-- The blocking mode that the operating system has for a handle after calls. -/
def modeAfter {Address : Type*} (handle : Handle) (mode : Bool) (calls : List (Call Address)) : Bool :=
  calls.foldl (fun mode call =>
    match call with
    | .setBlocking other shouldBlock answer =>
        if other = handle ∧ answer.success = true then shouldBlock else mode
    | _ => mode) mode

/-- What a caller expects of `clearRxBuff` on a socket with a blocking mode: no datagram is left when it
returns, and the socket has its mode back when it exits. -/
structure Clears {Address : Type*} (socket : RaiiSocket) (mode : Bool) (run : Cleared Address) : Prop where
  emptied : run.outcome = .returned → ∃ answer ∈ run.taken, answer.reportsEmpty = true
  restored : run.outcome.exits = true →
    run.socket.isBlockingMode = socket.isBlockingMode ∧ modeAfter socket.handle mode run.calls = mode

/-- The first answer that is no datagram, if there is one, says that no datagram is left. -/
def EmptyFirst (answers : List RecvAnswer) : Prop :=
  ∀ answer, answers.find? (fun answer => !answer.isDatagram) = some answer → answer.reportsEmpty = true

variable {Address : Type*}

theorem recv_ok {answer : RecvAnswer} {buffer received : ArrayView} {value : Int}
    (res : PortLayer.recv answer buffer = .ok value)
    (front : buffer.subview 0 (BitVec.ofInt 64 value) = some received) :
    RaiiSocket.recv answer buffer = some ⟨received, .ok value⟩ := by
  simp only [RaiiSocket.recv, res, front, Option.map_some]

/-- A datagram, cut to the buffer, is received. -/
theorem recv_datagram (length : Nat) (errno : ErrorCode) :
    ∃ received, RaiiSocket.recv (.datagram length errno) bufferView =
      some ⟨received, .ok (min length 64 : Nat)⟩ := by
  have within : min length 64 ≤ 64 := Nat.min_le_right _ _
  have kept : IntType.int.convert (min length 64 : Nat) = (min length 64 : Nat) :=
    Tcp.int_convert_small (by omega)
  have nonnegative : ((min length 64 : Nat) : Int) ≠ -1 := by omega
  have res : PortLayer.recv (.datagram length errno) bufferView = .ok (min length 64 : Nat) := by
    have whole : toNativeBufLen bufferView.size = 64 := Tcp.toNativeBufLen_small (by decide)
    simp only [PortLayer.recv, whole, kept, makeReturnValue, if_pos nonnegative]
  have count : (BitVec.ofNat 64 (min length 64)).toNat = min length 64 := by
    rw [BitVec.toNat_ofNat, Nat.mod_eq_of_lt (by omega)]
  have received : bufferView.subview 0 (BitVec.ofInt 64 (min length 64 : Nat)) =
      some ⟨bufferView.data, BitVec.ofNat 64 (min length 64)⟩ := by
    rw [BitVec.ofInt_natCast]
    apply ArrayView.subview_front
    rw [count]
    exact within
  exact ⟨_, recv_ok res received⟩

theorem recv_failed (code : ErrorCode) (buffer : ArrayView) :
    RaiiSocket.recv (.failed code) buffer = some ⟨{}, .error code⟩ := by
  have res : PortLayer.recv (.failed code) buffer = .error code := by
    rw [PortLayer.recv, makeReturnValue, if_neg (by simp)]
  simp only [RaiiSocket.recv, res]

/-- The loop goes on behind what it receives. -/
theorem drain_ok {answer : RecvAnswer} {rest : List RecvAnswer} {buffer : ArrayView}
    {received : RecvResult} {value : Int} (here : RaiiSocket.recv answer buffer = some received)
    (success : received.result = .ok value) :
    drain buffer (answer :: rest) = (answer :: (drain buffer rest).1, (drain buffer rest).2) := by
  simp only [drain, here, success]

/-- The loop takes the datagrams and the answer behind them, whatever error it is. -/
theorem drain_eq (answers : List RecvAnswer) :
    drain bufferView answers =
      match answers.find? fun answer => !answer.isDatagram with
      | none => (answers, .running)
      | some last => (answers.takeWhile RecvAnswer.isDatagram ++ [last], .returned) := by
  induction answers with
  | nil => rfl
  | cons answer rest ih =>
      cases answer with
      | datagram length errno =>
          obtain ⟨received, here⟩ := recv_datagram length errno
          have skipped : (RecvAnswer.datagram length errno :: rest).find? (fun answer => !answer.isDatagram) =
              rest.find? fun answer => !answer.isDatagram := rfl
          have kept : (RecvAnswer.datagram length errno :: rest).takeWhile RecvAnswer.isDatagram =
              .datagram length errno :: rest.takeWhile RecvAnswer.isDatagram := rfl
          rw [skipped, kept, drain_ok here rfl, ih]
          split <;> rfl
      | failed code =>
          rw [drain, recv_failed]
          rfl

/-- The loop returns with an empty queue exactly where the first other answer says so. -/
theorem drain_emptied_iff (answers : List RecvAnswer) :
    ((drain bufferView answers).2 = .returned →
      ∃ answer ∈ (drain bufferView answers).1, answer.reportsEmpty = true) ↔ EmptyFirst answers := by
  rw [drain_eq, EmptyFirst]
  cases first : answers.find? fun answer => !answer.isDatagram with
  | none => simp
  | some last =>
      simp only [forall_const, Option.some.injEq, forall_eq']
      constructor
      · rintro ⟨answer, member, empty⟩
        rcases List.mem_append.mp member with datagrams | member
        · have datagram := List.all_eq_true.mp List.all_takeWhile _ datagrams
          cases answer <;> contradiction
        · rwa [← List.mem_singleton.mp member]
      · intro empty
        exact ⟨last, List.mem_append_right _ (List.mem_singleton_self last), empty⟩

/-- The buffer takes each datagram, so that the loop never ends the program. -/
theorem drain_continues (answers : List RecvAnswer) : (drain bufferView answers).2 ≠ .terminated := by
  rw [drain_eq]
  split <;> exact nofun

/-- The cached mode goes with that of the operating system. -/
theorem modeAfter_setBlocking (Address : Type*) (socket : RaiiSocket) (shouldBlock : Bool)
    (answer : ErrorCode) :
    let after : RaiiSocket × List (Call Address) := socket.setBlocking shouldBlock answer
    modeAfter socket.handle socket.isBlocking after.2 = after.1.isBlocking := by
  by_cases same : (socket.isBlocking == shouldBlock) = true
  · simp [RaiiSocket.setBlocking, same, modeAfter]
  · simp only [RaiiSocket.setBlocking, if_neg same, RaiiSocket.setBlockingUncached, modeAfter,
      List.foldl_cons, List.foldl_nil, true_and]
    cases answer.success <;> rfl

/-- The mode changes exactly where `set_blocking` succeeds. -/
theorem isBlocking_setBlocking (Address : Type*) (socket : RaiiSocket) (shouldBlock : Bool)
    (answer : ErrorCode) :
    (socket.setBlocking shouldBlock answer : RaiiSocket × List (Call Address)).1.isBlocking =
      if (socket.setBlockingResult shouldBlock answer).success then shouldBlock
      else socket.isBlocking := by
  by_cases same : (socket.isBlocking == shouldBlock) = true
  · rw [beq_iff_eq] at same
    simp [RaiiSocket.setBlocking, same]
  · simp only [RaiiSocket.setBlocking, RaiiSocket.setBlockingResult, if_neg same,
      RaiiSocket.setBlockingUncached]
    split <;> rfl

theorem modeAfter_append (handle : Handle) (mode : Bool) (calls more : List (Call Address)) :
    modeAfter handle mode (calls ++ more) = modeAfter handle (modeAfter handle mode calls) more :=
  List.foldl_append

/-- The restorer brings the mode back, where the operating system obeys. -/
theorem leave_restored {r : BlockingRestorer} {restoring : ErrorCode} {run : Cleared Address}
    {mode : Bool} (obeys : restoring.success = true)
    (follows : modeAfter run.socket.handle mode run.calls = run.socket.isBlocking)
    (exits : run.outcome.exits = true) :
    (leave r restoring run).socket.handle = run.socket.handle ∧
      (leave r restoring run).socket.isBlocking = r.wasBlocking ∧
        modeAfter run.socket.handle mode (leave r restoring run).calls = r.wasBlocking := by
  have success : (run.socket.setBlockingResult r.wasBlocking restoring).success = true := by
    unfold RaiiSocket.setBlockingResult
    split
    · rfl
    · exact obeys
  have back := isBlocking_setBlocking Address run.socket r.wasBlocking restoring
  have cached := modeAfter_setBlocking Address run.socket r.wasBlocking restoring
  rw [if_pos success] at back
  rw [leave, if_pos exits]
  refine ⟨RaiiSocket.setBlocking_handle Address _ _ _, back, ?_⟩
  rw [BlockingRestorer.destruct, modeAfter_append, follows]
  exact cached.trans back

/-- The destructor keeps how the call ends and what it has taken. -/
theorem leave_outcome (r : BlockingRestorer) (restoring : ErrorCode) (run : Cleared Address) :
    (leave r restoring run).outcome = run.outcome ∧ (leave r restoring run).taken = run.taken := by
  unfold leave
  split <;> exact ⟨rfl, rfl⟩

theorem clearing_follows (Address : Type*) (socket : RaiiSocket) (setting : ErrorCode)
    (answers : List RecvAnswer) :
    (clearing socket setting answers : Cleared Address).socket.handle = socket.handle ∧
      modeAfter socket.handle socket.isBlocking
          (clearing socket setting answers : Cleared Address).calls =
        (clearing socket setting answers : Cleared Address).socket.isBlocking := by
  have handle := RaiiSocket.setBlocking_handle Address socket false setting
  have cached := modeAfter_setBlocking Address socket false setting
  simp only [clearing]
  split <;> exact ⟨handle, cached⟩

/-- An exception for the mode says nothing about the queue. -/
theorem clearing_emptied_iff (Address : Type*) (socket : RaiiSocket) (setting : ErrorCode)
    (answers : List RecvAnswer) :
    ((clearing socket setting answers : Cleared Address).outcome = .returned →
        ∃ answer ∈ (clearing socket setting answers : Cleared Address).taken,
          answer.reportsEmpty = true) ↔
      (socket.isBlocking = true ∧ setting.success = false) ∨ EmptyFirst answers := by
  by_cases success : (socket.setBlockingResult false setting).success = true
  · have obeyed : ¬ (socket.isBlocking = true ∧ setting.success = false) := by
      rintro ⟨blocks, fails⟩
      simp [RaiiSocket.setBlockingResult, blocks, fails] at success
    rw [or_iff_right obeyed, ← drain_emptied_iff]
    simp only [clearing, if_pos success]
  · have fails : socket.isBlocking = true ∧ setting.success = false := by
      cases blocks : socket.isBlocking with
      | false => simp [RaiiSocket.setBlockingResult, blocks, ErrorCode.success, ErrorCode.noError] at success
      | true => simpa [RaiiSocket.setBlockingResult, blocks] using success
    refine iff_of_true ?_ (.inl fails)
    simp only [clearing, if_neg success]
    exact nofun

/-- The call clears the queue and keeps the mode exactly where the first answer that is no datagram says
that the queue is empty, or the mode could not be changed in the first place. -/
theorem clearRxBuff_clears_iff {handle : Handle} (valid : handle ≠ .invalid) (mode : Bool)
    (setting : ErrorCode) {restoring : ErrorCode} (obeys : restoring.success = true)
    (answers : List RecvAnswer) :
    let socket : RaiiSocket := ⟨handle, mode⟩
    let run : Cleared Address := clearRxBuff socket setting restoring answers
    Clears socket mode run ↔ (mode = true ∧ setting.success = false) ∨ EmptyFirst answers := by
  intro socket run
  have blocks : socket.isBlockingMode = mode := by
    simp [socket, RaiiSocket.isBlockingMode, RaiiSocket.isValid, valid]
  obtain ⟨outcome, taken⟩ :=
    leave_outcome (.construct socket) restoring (clearing socket setting answers : Cleared Address)
  have restored : run.outcome.exits = true →
      run.socket.isBlockingMode = socket.isBlockingMode ∧ modeAfter handle mode run.calls = mode := by
    intro exits
    obtain ⟨same, follows⟩ := clearing_follows Address socket setting answers
    rw [← same] at follows
    have exits : (clearing socket setting answers : Cleared Address).outcome.exits = true := by
      rwa [← outcome]
    obtain ⟨kept, cached, back⟩ := leave_restored (r := .construct socket) obeys follows exits
    rw [same] at kept back
    have wasBlocking : (BlockingRestorer.construct socket).wasBlocking = mode := blocks
    rw [wasBlocking] at cached back
    refine ⟨?_, back⟩
    rw [blocks]
    simp only [run, clearRxBuff, RaiiSocket.isBlockingMode, RaiiSocket.isValid, cached, kept]
    simp [socket, valid]
  rw [← clearing_emptied_iff Address socket setting answers, ← outcome, ← taken]
  exact ⟨Clears.emptied, fun emptied => ⟨emptied, restored⟩⟩

/-- A blocking socket with two datagrams in its queue. -/
theorem clearRxBuff_clears_two :
    (⟨3⟩ : Handle) ≠ .invalid ∧ ErrorCode.noError.success = true ∧
      Clears ⟨⟨3⟩, true⟩ true (clearRxBuff ⟨⟨3⟩, true⟩ .noError .noError
        [.datagram 5 ⟨0⟩, .datagram 70 ⟨0⟩, .failed .wouldBlock] : Cleared Unit) :=
  ⟨by decide, rfl, (clearRxBuff_clears_iff (by decide) true .noError rfl _).mpr (.inr (by
    intro answer first
    cases first
    rfl))⟩

/-- A refused connection is reported first, and the datagram behind it stays in the queue. -/
theorem clearRxBuff_refused :
    ¬ ∀ (mode : Bool) (answers : List RecvAnswer),
      Clears ⟨⟨3⟩, mode⟩ mode
        (clearRxBuff ⟨⟨3⟩, mode⟩ .noError .noError answers : Cleared Unit) := by
  intro always
  have clears := always true [.failed ⟨111⟩, .datagram 5 ⟨0⟩, .failed .wouldBlock]
  obtain ⟨answer, member, empty⟩ := clears.emptied rfl
  have taken : (clearRxBuff ⟨⟨3⟩, true⟩ .noError .noError
      [.failed ⟨111⟩, .datagram 5 ⟨0⟩, .failed .wouldBlock] : Cleared Unit).taken =
        [.failed ⟨111⟩] := rfl
  rw [taken, List.mem_singleton] at member
  subst member
  contradiction

end DgramSocket

end MartCommon.Netlib
