import MartCommon.Netlib.DatagramSend

namespace MartCommon.Netlib

open Common Library PortLayer

namespace PortLayer

/-- `ErrorCodeValues::Timeout` -/
def ErrorCode.timeout : ErrorCode := ⟨10060⟩

/-- `ErrorCodeValues::WsaeConnReset` -/
def ErrorCode.wsaeConnReset : ErrorCode := ⟨0x2746⟩

end PortLayer

namespace Datagram

/-- A datagram with the address that it comes from. -/
structure Packet (Address : Type*) where
  payload : Text
  source : Address

/-- What the operating system has for a socket, and the memory of the program. Errors that came with
earlier datagrams are reported before the datagrams that have arrived. -/
structure Inbox (Address : Type*) where
  queue : List (Packet Address) := []
  errors : List ErrorCode := []
  socket : RaiiSocket
  memory : Pointer → UInt8

/-- The endpoints that `recvfrom` makes of addresses, and the address `addr{}`. -/
structure SourceType (Endpoint Address : Type*) where
  ofSockAddr : Address → Endpoint
  noAddress : Address

/-- How a member function that receives ends, with the remote address of a `RecvfromResult`. -/
inductive ReceiveOutcome (Endpoint : Type*) where
  | received (data : ArrayView) (remoteAddress : Option Endpoint)
  | thrown (message : Text)
  | terminated

/-- `is_none_of` -/
def isNoneOf (values : List ErrorCode) (v : ErrorCode) : Bool := values.all fun value => v != value

/-- The errors after which `recv` and `recvfrom` return. -/
def expectedErrors : List ErrorCode :=
  [.wouldBlock, .tryAgain, .timeout, .wsaeConnReset]

variable {Endpoint Address : Type*}

section Members

variable (strerror : Int → Text) (S : SourceType Endpoint Address) (answer : RecvAnswer)
  (addr : Address) (buffer : ArrayView)

/-- The functions with an exception turn the errors into it that they do not expect. -/
def checked (res : RecvResult) (remoteAddress : Option Endpoint) : ReceiveOutcome Endpoint :=
  match res.result with
  | .ok _ => .received res.receivedData remoteAddress
  | .error code =>
      if isNoneOf expectedErrors code then
        .thrown (makeErrorMessage strerror code [ascii "Failed to receive data. Details:  "])
      else .received res.receivedData remoteAddress

/-- `try_recv` -/
def tryRecv : ReceiveOutcome Endpoint :=
  match RaiiSocket.recv answer buffer with
  | none => .terminated
  | some res => .received res.receivedData none

/-- `DgramSocketBase::recv` -/
def recv : ReceiveOutcome Endpoint :=
  match RaiiSocket.recv answer buffer with
  | none => .terminated
  | some res => checked strerror res none

/-- `try_recvfrom`, where the operating system leaves `addr`. It differs from `recv` in the address only. -/
def tryRecvfrom : ReceiveOutcome Endpoint :=
  match RaiiSocket.recv answer buffer with
  | none => .terminated
  | some res => .received res.receivedData (some (S.ofSockAddr addr))

/-- `DgramSocket::recvfrom` -/
def recvfrom : ReceiveOutcome Endpoint :=
  match RaiiSocket.recv answer buffer with
  | none => .terminated
  | some res => checked strerror res (some (S.ofSockAddr addr))

end Members

/-- A member function that receives. -/
inductive ReceiveCall where
  | tryRecv
  | recv
  | tryRecvfrom
  | recvfrom
  deriving DecidableEq

namespace ReceiveCall

def run (strerror : Int → Text) (S : SourceType Endpoint Address) (answer : RecvAnswer) (addr : Address)
    (buffer : ArrayView) : ReceiveCall → ReceiveOutcome Endpoint
  | .tryRecv => Datagram.tryRecv answer buffer
  | .recv => Datagram.recv strerror answer buffer
  | .tryRecvfrom => Datagram.tryRecvfrom S answer addr buffer
  | .recvfrom => Datagram.recvfrom strerror S answer addr buffer

def throws : ReceiveCall → Bool
  | .recv | .recvfrom => true
  | .tryRecv | .tryRecvfrom => false

/-- What the call tells about an address. -/
def shows (S : SourceType Endpoint Address) (addr : Address) : ReceiveCall → Option Endpoint
  | .tryRecvfrom | .recvfrom => some (S.ofSockAddr addr)
  | .tryRecv | .recv => none

end ReceiveCall

/-- The operating system writes bytes into the memory from a place on. -/
def write (memory : Pointer → UInt8) (pointer : Pointer) (bytes : Text) : Pointer → UInt8 := fun place =>
  if place.array = pointer.array ∧ pointer.index ≤ place.index then
    (bytes[place.index - pointer.index]?).getD (memory place)
  else memory place

namespace Inbox

variable (inbox : Inbox Address)

/-- The datagram that the next call takes. -/
def next : Option (Packet Address) :=
  if inbox.errors.isEmpty then inbox.queue.head? else none

/-- The answer to the next call. A call on an empty queue reports `errno`, and another one leaves it. -/
def answer (errno : ErrorCode) : RecvAnswer :=
  match inbox.errors with
  | code :: _ => .failed code
  | [] =>
      match inbox.queue with
      | packet :: _ => .datagram packet.payload.length errno
      | [] => .failed errno

/-- The effect of a call of the operating system with a buffer. -/
def called (buffer : ArrayView) : Inbox Address :=
  match inbox.errors with
  | _ :: errors => { inbox with errors := errors }
  | [] =>
      match inbox.queue with
      | packet :: queue => { inbox with
          queue := queue
          memory := write inbox.memory buffer.data (packet.payload.take (toNativeBufLen buffer.size)) }
      | [] => inbox

/-- The answers to calls one after the other, until there is nothing left. -/
def answers (errno : ErrorCode) : List RecvAnswer :=
  inbox.errors.map .failed ++ inbox.queue.map (fun packet => .datagram packet.payload.length errno) ++
    [.failed .wouldBlock]

end Inbox

/-- What happens at a socket. -/
inductive ReceiveEvent (Endpoint Address : Type*) where
  | arrived (packet : Packet Address)
  | failed (code : ErrorCode)
  | answered (call : ReceiveCall) (buffer : ArrayView) (answer : RecvAnswer)
      (outcome : ReceiveOutcome Endpoint) (memory : Pointer → UInt8) (taken : Option (Packet Address))
  | cleared (refused : Bool) (outcome : DgramSocket.ClearOutcome) (pending : List ErrorCode)
      (taken left : List (Packet Address))

/-- A datagram or an error arrives, or the program calls a member function. -/
inductive ReceiveAction (Address : Type*) where
  | arrives (packet : Packet Address)
  | fails (code : ErrorCode)
  | receives (call : ReceiveCall) (buffer : ArrayView) (errno : ErrorCode)
  | clears (setting restoring errno : ErrorCode)

/-- The operating system refuses to take a blocking socket into the other mode. -/
def refuses (socket : RaiiSocket) (setting : ErrorCode) : Bool := socket.isBlocking && !setting.success

/-- `clearRxBuff` at a socket. Its own buffer is no memory of its caller. -/
def clears (inbox : Inbox Address) (setting restoring errno : ErrorCode) :
    ReceiveEvent Endpoint Address × Inbox Address :=
  let run : DgramSocket.Cleared Address :=
    DgramSocket.clearRxBuff inbox.socket setting restoring (inbox.answers errno)
  let datagrams := run.taken.countP RecvAnswer.isDatagram
  let reports := run.taken.countP fun answer => !answer.isDatagram
  (.cleared (refuses inbox.socket setting) run.outcome inbox.errors (inbox.queue.take datagrams)
      (inbox.queue.drop datagrams),
    { inbox with
      queue := inbox.queue.drop datagrams
      errors := inbox.errors.drop reports
      socket := run.socket })

/-- No datagram is as long as the largest `int`. -/
def receiveStep (strerror : Int → Text) (S : SourceType Endpoint Address) (inbox : Inbox Address) :
    ReceiveAction Address → Option (ReceiveEvent Endpoint Address × Inbox Address)
  | .arrives packet =>
      if packet.payload.length < 2 ^ 31 then
        some (.arrived packet, { inbox with queue := inbox.queue ++ [packet] })
      else none
  | .fails code => some (.failed code, { inbox with errors := inbox.errors ++ [code] })
  | .receives call buffer errno =>
      let answer := inbox.answer errno
      let after := inbox.called buffer
      let addr := (inbox.next.map Packet.source).getD S.noAddress
      some (.answered call buffer answer (call.run strerror S answer addr buffer) after.memory inbox.next, after)
  | .clears setting restoring errno => some (clears inbox setting restoring errno)

def receiveSystem (strerror : Int → Text) (S : SourceType Endpoint Address) :
    StepSystem (Inbox Address) (ReceiveAction Address) (ReceiveEvent Endpoint Address) :=
  ⟨receiveStep strerror S⟩

/-- The datagrams that have arrived, oldest first. -/
def arrivals : List (ReceiveEvent Endpoint Address) → List (Packet Address) :=
  List.filterMap fun event => match event with
    | .arrived packet => some packet
    | _ => none

/-- The datagrams that an event takes from the queue. -/
def ReceiveEvent.taken : ReceiveEvent Endpoint Address → List (Packet Address)
  | .answered _ _ _ _ _ taken => taken.toList
  | .cleared _ _ _ taken _ => taken
  | .arrived _ | .failed _ => []

/-- A call that takes a datagram returns it with its source, in the front of the buffer and cut to its
length. A call that takes none returns nothing, or throws for an error that it does not expect. -/
structure Answered (S : SourceType Endpoint Address) (call : ReceiveCall) (buffer : ArrayView)
    (answer : RecvAnswer) (outcome : ReceiveOutcome Endpoint) (memory : Pointer → UInt8)
    (taken : Option (Packet Address)) : Prop where
  datagram : ∀ packet, taken = some packet →
    ∃ data : ArrayView, outcome = .received data (call.shows S packet.source) ∧ data.data = buffer.data ∧
      data.elements memory = packet.payload.take (toNativeBufLen buffer.size)
  nothing : taken = none →
    ∃ code, answer = .failed code ∧
      if call.throws = true ∧ code ∉ expectedErrors then ∃ message, outcome = .thrown message
      else outcome = .received {} (call.shows S S.noAddress)

/-- What a caller sees of an event. `clearRxBuff` empties the queue, unless the mode cannot be changed, which it
throws for, or an error is pending, which keeps it from its work. -/
def ReceiveEvent.Faithful (S : SourceType Endpoint Address) : ReceiveEvent Endpoint Address → Prop
  | .answered call buffer answer outcome memory taken => Answered S call buffer answer outcome memory taken
  | .cleared refused outcome pending taken left =>
      if refused = true then (∃ message, outcome = .thrown message) ∧ taken = []
      else outcome = .returned ∧ if pending = [] then left = [] else taken = []
  | .arrived _ | .failed _ => True

variable {strerror : Int → Text} {S : SourceType Endpoint Address} {inbox after : Inbox Address}
  {buffer : ArrayView}

/-- The front of a buffer shows what is written there. -/
theorem elements_write (memory : Pointer → UInt8) (pointer : Pointer) {bytes : Text} {size : SizeT}
    (length : size.toNat = bytes.length) :
    ArrayView.elements ⟨pointer, size⟩ (write memory pointer bytes) = bytes := by
  apply List.ext_getElem?
  intro index
  rw [ArrayView.elements, List.getElem?_map, length]
  by_cases inside : index < bytes.length
  · rw [List.getElem?_range inside, Option.map_some, List.getElem?_eq_getElem inside]
    have offset : pointer.index + index - pointer.index = index := by omega
    simp [write, Pointer.add, offset, inside]
  · rw [List.getElem?_eq_none (by simpa using inside), List.getElem?_eq_none (by omega)]
    rfl

theorem toNativeBufLen_le (size : SizeT) : toNativeBufLen size ≤ size.toNat := by
  rw [toNativeBufLen_eq]
  exact Nat.mod_le _ _

/-- A datagram, cut to the buffer, is received in its front. -/
theorem recv_front (buffer : ArrayView) {length : Nat} (errno : ErrorCode) (short : length < 2 ^ 31) :
    RaiiSocket.recv (.datagram length errno) buffer =
      some ⟨⟨buffer.data, BitVec.ofNat 64 (min length (toNativeBufLen buffer.size))⟩,
        .ok (min length (toNativeBufLen buffer.size) : Nat)⟩ := by
  let count := min length (toNativeBufLen buffer.size)
  have small : count < 2 ^ 31 := lt_of_le_of_lt (Nat.min_le_left _ _) short
  have within : count ≤ buffer.size.toNat := le_trans (Nat.min_le_right _ _) (toNativeBufLen_le buffer.size)
  have nonnegative : (count : Int) ≠ -1 := by omega
  have res : PortLayer.recv (.datagram length errno) buffer = .ok (count : Int) := by
    rw [PortLayer.recv, Tcp.int_convert_small small, makeReturnValue, if_pos nonnegative]
  have whole : (BitVec.ofNat 64 count).toNat = count := by
    rw [BitVec.toNat_ofNat, Nat.mod_eq_of_lt (by omega)]
  have front : buffer.subview 0 (BitVec.ofInt 64 count) = some ⟨buffer.data, BitVec.ofNat 64 count⟩ := by
    rw [BitVec.ofInt_natCast]
    apply ArrayView.subview_front
    rw [whole]
    exact within
  exact DgramSocket.recv_ok res front

theorem isNoneOf_eq_true {values : List ErrorCode} {v : ErrorCode} :
    isNoneOf values v = true ↔ v ∉ values := by
  rw [isNoneOf, List.all_eq_true]
  constructor
  · intro different member
    simpa using different v member
  · intro outside value member
    rw [bne_iff_ne]
    intro same
    rw [same] at outside
    exact outside member

/-- All the functions return a datagram alike. -/
theorem run_received {call : ReceiveCall} {answer : RecvAnswer} {addr : Address} {data : ArrayView} {value : Int}
    (res : RaiiSocket.recv answer buffer = some ⟨data, .ok value⟩) :
    call.run strerror S answer addr buffer = .received data (call.shows S addr) := by
  cases call with
  | tryRecv => rw [ReceiveCall.run, tryRecv, res]; rfl
  | recv => rw [ReceiveCall.run, recv, res]; rfl
  | tryRecvfrom => rw [ReceiveCall.run, tryRecvfrom, res]; rfl
  | recvfrom => rw [ReceiveCall.run, recvfrom, res]; rfl

theorem checked_error (strerror : Int → Text) (code : ErrorCode) (remoteAddress : Option Endpoint) :
    (code ∉ expectedErrors → ∃ message, checked strerror ⟨{}, .error code⟩ remoteAddress = .thrown message) ∧
      (code ∈ expectedErrors → checked strerror ⟨{}, .error code⟩ remoteAddress = .received {} remoteAddress) := by
  constructor
  · intro unexpected
    exact ⟨_, if_pos (isNoneOf_eq_true.mpr unexpected)⟩
  · intro expected
    exact if_neg fun noneOf => isNoneOf_eq_true.mp noneOf expected

/-- Only the throwing functions tell errors apart. -/
theorem run_failed (strerror : Int → Text) (S : SourceType Endpoint Address) (call : ReceiveCall)
    (code : ErrorCode) (addr : Address) (buffer : ArrayView) :
    if call.throws = true ∧ code ∉ expectedErrors then
      ∃ message, call.run strerror S (.failed code) addr buffer = .thrown message
    else call.run strerror S (.failed code) addr buffer = .received {} (call.shows S addr) := by
  have res := DgramSocket.recv_failed code buffer
  have unexpected {call : ReceiveCall} (throws : call.throws = true)
      (same : call.run strerror S (.failed code) addr buffer =
        checked strerror ⟨{}, .error code⟩ (call.shows S addr)) :
      if call.throws = true ∧ code ∉ expectedErrors then
        ∃ message, call.run strerror S (.failed code) addr buffer = .thrown message
      else call.run strerror S (.failed code) addr buffer = .received {} (call.shows S addr) := by
    obtain ⟨throwing, returning⟩ := checked_error strerror code (call.shows S addr)
    rw [same]
    by_cases expected : code ∈ expectedErrors
    · rw [if_neg fun both => both.2 expected]
      exact returning expected
    · rw [if_pos ⟨throws, expected⟩]
      exact throwing expected
  cases call with
  | tryRecv =>
      rw [if_neg fun both => Bool.false_ne_true both.1, ReceiveCall.run, tryRecv, res]
      rfl
  | tryRecvfrom =>
      rw [if_neg fun both => Bool.false_ne_true both.1, ReceiveCall.run, tryRecvfrom, res]
      rfl
  | recv =>
      apply unexpected rfl
      rw [ReceiveCall.run, recv, res]
      rfl
  | recvfrom =>
      apply unexpected rfl
      rw [ReceiveCall.run, recvfrom, res]
      rfl

/-- Each call answers faithfully, whatever is in the queue. -/
theorem answered (strerror : Int → Text) (S : SourceType Endpoint Address) (call : ReceiveCall)
    (buffer : ArrayView) (errno : ErrorCode)
    (short : ∀ packet ∈ inbox.queue, packet.payload.length < 2 ^ 31) :
    Answered S call buffer (inbox.answer errno)
      (call.run strerror S (inbox.answer errno) ((inbox.next.map Packet.source).getD S.noAddress) buffer)
      (inbox.called buffer).memory inbox.next := by
  have failed (code : ErrorCode) (answer : inbox.answer errno = .failed code) (next : inbox.next = none) :
      Answered S call buffer (inbox.answer errno)
        (call.run strerror S (inbox.answer errno) ((inbox.next.map Packet.source).getD S.noAddress) buffer)
        (inbox.called buffer).memory inbox.next := by
    rw [answer, next]
    constructor
    · intro packet taken
      contradiction
    · intro _
      exact ⟨code, rfl, run_failed strerror S call code S.noAddress buffer⟩
  cases errors : inbox.errors with
  | cons code rest =>
      apply failed code
      · rw [Inbox.answer, errors]
      · rw [Inbox.next, errors]
        rfl
  | nil =>
      cases queue : inbox.queue with
      | nil =>
          apply failed errno
          · rw [Inbox.answer, errors, queue]
          · rw [Inbox.next, errors, queue]
            rfl
      | cons packet rest =>
          have next : inbox.next = some packet := by
            rw [Inbox.next, errors, queue]
            rfl
          have answer : inbox.answer errno = .datagram packet.payload.length errno := by
            rw [Inbox.answer, errors, queue]
          have memory : (inbox.called buffer).memory =
              write inbox.memory buffer.data (packet.payload.take (toNativeBufLen buffer.size)) := by
            rw [Inbox.called, errors, queue]
          have length : packet.payload.length < 2 ^ 31 := by
            apply short
            rw [queue]
            exact List.mem_cons_self
          rw [next, answer, memory]
          constructor
          · intro taken same
            cases same
            have res := recv_front buffer errno length
            refine ⟨_, run_received res, rfl, elements_write _ _ ?_⟩
            rw [List.length_take, BitVec.toNat_ofNat, Nat.min_comm, Nat.mod_eq_of_lt]
            omega
          · intro nothing
            contradiction

/-- The loop of `clearRxBuff` takes all datagrams, or the first error that is pending. -/
theorem drain_answers (inbox : Inbox Address) (errno : ErrorCode) :
    (DgramSocket.drain DgramSocket.bufferView (inbox.answers errno)).2 = .returned ∧
      (DgramSocket.drain DgramSocket.bufferView (inbox.answers errno)).1.countP RecvAnswer.isDatagram =
        if inbox.errors = [] then inbox.queue.length else 0 := by
  let datagram (packet : Packet Address) : RecvAnswer := .datagram packet.payload.length errno
  rw [DgramSocket.drain_eq]
  cases errors : inbox.errors with
  | cons code rest =>
      have first : inbox.answers errno = .failed code :: (rest.map .failed ++ inbox.queue.map datagram ++
          [.failed .wouldBlock]) := by
        rw [Inbox.answers, errors]
        rfl
      rw [first, List.find?_cons_of_pos rfl, List.takeWhile_cons_of_neg (by exact Bool.false_ne_true)]
      exact ⟨rfl, rfl⟩
  | nil =>
      have all : inbox.answers errno = inbox.queue.map datagram ++ [.failed .wouldBlock] := by
        rw [Inbox.answers, errors]
        rfl
      have each : ∀ answer ∈ inbox.queue.map datagram, answer.isDatagram = true := by
        intro answer member
        obtain ⟨packet, -, rfl⟩ := List.mem_map.mp member
        rfl
      have others : (inbox.queue.map datagram).find? (fun answer => !answer.isDatagram) = none := by
        rw [List.find?_eq_none]
        intro answer member
        rw [each answer member]
        exact Bool.false_ne_true
      rw [all, List.find?_append, others, List.takeWhile_append_of_pos each, if_pos rfl]
      refine ⟨rfl, ?_⟩
      change ((inbox.queue.map datagram ++ []) ++ [RecvAnswer.failed .wouldBlock]).countP RecvAnswer.isDatagram = _
      rw [List.append_nil, List.countP_append, List.countP_eq_length.mpr each, List.length_map]
      rfl

/-- The mode is set unless the operating system refuses that. -/
theorem setBlockingResult_success (socket : RaiiSocket) (setting : ErrorCode) :
    (socket.setBlockingResult false setting).success = !refuses socket setting := by
  rw [RaiiSocket.setBlockingResult, refuses]
  cases socket.isBlocking with
  | false => rfl
  | true => exact (Bool.not_not _).symm

/-- `clearRxBuff` throws where the mode could not be set. It returns with an empty queue where no error was
pending, and else it takes nothing. -/
theorem clears_faithful (S : SourceType Endpoint Address) (inbox : Inbox Address)
    (setting restoring errno : ErrorCode) :
    ReceiveEvent.Faithful S (clears inbox setting restoring errno).1 := by
  let answers := inbox.answers errno
  obtain ⟨outcome, taken⟩ := DgramSocket.leave_outcome (.construct inbox.socket) restoring
    (DgramSocket.clearing inbox.socket setting answers : DgramSocket.Cleared Address)
  obtain ⟨returned, count⟩ := drain_answers inbox errno
  rw [clears, DgramSocket.clearRxBuff]
  dsimp only
  rw [outcome, taken]
  simp only [DgramSocket.clearing, setBlockingResult_success]
  cases refused : refuses inbox.socket setting with
  | true => exact ⟨⟨_, rfl⟩, List.take_zero⟩
  | false =>
      refine ⟨returned, ?_⟩
      rw [Bool.not_false, if_pos rfl]
      dsimp only
      rw [count]
      split
      · exact List.drop_length
      · exact List.take_zero

/-- An event keeps the order of the datagrams and the bound on their length. -/
structure Delivering (S : SourceType Endpoint Address) (history : List (ReceiveEvent Endpoint Address))
    (inbox : Inbox Address) : Prop where
  conserved : arrivals history = history.flatMap ReceiveEvent.taken ++ inbox.queue
  short : ∀ packet ∈ inbox.queue, packet.payload.length < 2 ^ 31
  faithful : ∀ event ∈ history, event.Faithful S

/-- A call takes what the event says from the front of the queue. -/
theorem called_queue (inbox : Inbox Address) (buffer : ArrayView) :
    inbox.next.toList ++ (inbox.called buffer).queue = inbox.queue := by
  cases errors : inbox.errors with
  | cons code rest => simp [Inbox.next, Inbox.called, errors]
  | nil =>
      cases queue : inbox.queue with
      | nil => simp [Inbox.next, Inbox.called, errors, queue]
      | cons packet rest => simp [Inbox.next, Inbox.called, errors, queue]

/-- What each event but an arrival does to the queue. -/
theorem Delivering.taken {history : List (ReceiveEvent Endpoint Address)}
    {event : ReceiveEvent Endpoint Address} (delivering : Delivering S history inbox)
    (stays : arrivals [event] = []) (queue : event.taken ++ after.queue = inbox.queue)
    (faithful : event.Faithful S) : Delivering S (history ++ [event]) after where
  conserved := by
    have conserved := delivering.conserved
    rw [← queue, ← List.append_assoc] at conserved
    rw [arrivals] at stays
    rw [arrivals, List.filterMap_append, stays, List.append_nil, List.flatMap_append, List.flatMap_singleton]
    exact conserved
  short := by
    intro packet member
    apply delivering.short
    rw [← queue]
    exact List.mem_append_right _ member
  faithful := by
    intro found member
    rcases List.mem_append.mp member with earlier | now
    · exact delivering.faithful found earlier
    · rw [List.mem_singleton.mp now]
      exact faithful

/-- A step keeps the order of the datagrams. -/
theorem Delivering.step {history : List (ReceiveEvent Endpoint Address)}
    {event : ReceiveEvent Endpoint Address} {action : ReceiveAction Address}
    (delivering : Delivering S history inbox)
    (stepped : receiveStep strerror S inbox action = some (event, after)) :
    Delivering S (history ++ [event]) after := by
  cases action with
  | arrives packet =>
      simp only [receiveStep, Option.ite_none_right_eq_some] at stepped
      obtain ⟨short, same⟩ := stepped
      cases same
      constructor
      · have conserved := delivering.conserved
        rw [arrivals] at conserved
        rw [arrivals, List.filterMap_append, conserved, List.flatMap_append, List.append_assoc]
        simp [ReceiveEvent.taken]
      · intro found member
        rcases List.mem_append.mp member with earlier | now
        · exact delivering.short found earlier
        · rw [List.mem_singleton.mp now]
          exact short
      · intro found member
        rcases List.mem_append.mp member with earlier | now
        · exact delivering.faithful found earlier
        · rw [List.mem_singleton.mp now]
          trivial
  | fails code =>
      cases stepped
      exact delivering.taken rfl rfl trivial
  | receives call buffer errno =>
      cases stepped
      exact delivering.taken rfl (called_queue inbox buffer)
        (answered strerror S call buffer errno delivering.short)
  | clears setting restoring errno =>
      cases stepped
      exact delivering.taken rfl (List.take_append_drop _ _) (clears_faithful S inbox setting restoring errno)

end Datagram

end MartCommon.Netlib
