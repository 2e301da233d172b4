import MartCommon.Netlib.Datagram
import MartCommon.Netlib.UnixEndpoint

namespace MartCommon.Netlib

open Common Library PortLayer

/-- What `::send` and `::sendto` answer on a datagram socket. A datagram is sent as a whole, and the call
leaves an old value in `errno`, or it is not sent at all. -/
inductive SendAnswer where
  | sent (errno : ErrorCode)
  | failed (code : ErrorCode)
  deriving DecidableEq, Repr

namespace PortLayer

/-- The addresses of the endpoints that have a `DgramSocket`. -/
inductive Sockaddr where
  | inet (addr : Tcp.SockaddrIn)
  | unix (addr : SockaddrUn)
  deriving DecidableEq, Repr

/-- `ErrorCodeValues::InvalidArgument` on Linux -/
def ErrorCode.invalidArgument : ErrorCode := ⟨22⟩

/-- `port_layer::send` on a datagram socket takes the result of the operating system as an `int`. -/
def sendDatagram (answer : SendAnswer) (buf : ArrayView) : ReturnValue Int :=
  match answer with
  | .sent errno => makeReturnValue (IntType.int.convert (toNativeBufLen buf.size)) errno
  | .failed code => makeReturnValue (-1) code

/-- `is_invalid_destination_address` knows `0.0.0.0` only. -/
def isInvalidDestinationAddress : Sockaddr → Bool
  | .inet addr => addr.address.raw == 0
  | .unix _ => false

/-- `port_layer::sendto` does not call the operating system for an invalid destination. -/
def sendto (answer : SendAnswer) (buf : ArrayView) (addr : Sockaddr) : ReturnValue Int :=
  if isInvalidDestinationAddress addr then .error .invalidArgument else sendDatagram answer buf

end PortLayer

namespace RaiiSocket

/-- The result of a call with the data that it did not send. `subview` may end the program. -/
def remaining (res : ReturnValue Int) (data : ArrayView) : Option SendResult :=
  let valueOr : Int := match res with
    | .ok value => value
    | .error _ => 0
  (data.subviewFrom (BitVec.ofInt 64 valueOr)).map fun remaining => ⟨remaining, res⟩

/-- `RaiiSocket::send` on a datagram socket -/
def sendDatagram (answer : SendAnswer) (data : ArrayView) : Option SendResult :=
  remaining (PortLayer.sendDatagram answer data) data

/-- `RaiiSocket::sendto` -/
def sendto (answer : SendAnswer) (data : ArrayView) (addr : Sockaddr) : Option SendResult :=
  remaining (PortLayer.sendto answer data addr) data

end RaiiSocket

namespace Datagram

/-- How a member function that sends ends. An exception out of a `noexcept` function ends the program. -/
inductive SendOutcome where
  | returned (success : Bool)
  | thrown (message : Text)
  | narrowingError
  | terminated
  deriving DecidableEq, Repr

/-- `try_send` -/
def trySend (answer : SendAnswer) (data : ArrayView) : SendOutcome :=
  match RaiiSocket.sendDatagram answer data with
  | none => .terminated
  | some r => .returned r.result.isOk

/-- `DgramSocketBase::send` -/
def send (strerror : Int → Text) (answer : SendAnswer) (data : ArrayView) : SendOutcome :=
  match RaiiSocket.sendDatagram answer data with
  | none => .terminated
  | some res =>
      if res.result.isOk then .returned true
      else .thrown (makeErrorMessage strerror res.result.errorCode [ascii "Failed to send data. Details:  "])

/-- `try_sendto` -/
def trySendto (answer : SendAnswer) (data : ArrayView) (addr : Sockaddr) : SendOutcome :=
  match RaiiSocket.sendto answer data addr with
  | none => .terminated
  | some ret =>
      match Tcp.txWasSuccess data ret with
      | none => .terminated
      | some success => .returned success

/-- `try_sendto_default`, which asserts a valid default endpoint. It has the body of `try_sendto`, but it is not
`noexcept`. -/
def trySendtoDefault (answer : SendAnswer) (data : ArrayView) (epRemote : Sockaddr) : SendOutcome :=
  match RaiiSocket.sendto answer data epRemote with
  | none => .terminated
  | some ret =>
      match Tcp.txWasSuccess data ret with
      | none => .narrowingError
      | some success => .returned success

/-- `DgramSocket::sendto`, where `shown` is the text of the endpoint. -/
def sendto (strerror : Int → Text) (shown : Text) (answer : SendAnswer) (data : ArrayView)
    (addr : Sockaddr) : SendOutcome :=
  match RaiiSocket.sendto answer data addr with
  | none => .terminated
  | some res =>
      match Tcp.txWasSuccess data res with
      | none => .narrowingError
      | some true => .returned true
      | some false => .thrown (makeErrorMessage strerror res.result.errorCode
          [ascii "Failed to send data to ", shown, ascii ". Details:  "])

/-- A call of a member function that sends. A call of `sendto_default` is one of `sendto` with the default
endpoint. -/
inductive SendCall where
  | trySend
  | send
  | trySendto (addr : Sockaddr)
  | trySendtoDefault (epRemote : Sockaddr)
  | sendto (shown : Text) (addr : Sockaddr)

namespace SendCall

def run (strerror : Int → Text) (answer : SendAnswer) (data : ArrayView) : SendCall → SendOutcome
  | .trySend => Datagram.trySend answer data
  | .send => Datagram.send strerror answer data
  | .trySendto addr => Datagram.trySendto answer data addr
  | .trySendtoDefault epRemote => Datagram.trySendtoDefault answer data epRemote
  | .sendto shown addr => Datagram.sendto strerror shown answer data addr

/-- The call gets as far as the operating system. -/
def reaches : SendCall → Bool
  | .trySend | .send => true
  | .trySendto addr | .trySendtoDefault addr | .sendto _ addr => !isInvalidDestinationAddress addr

/-- The datagram that leaves the machine is as long as the operating system is told. -/
def transmitted (memory : Pointer → UInt8) (answer : SendAnswer) (data : ArrayView) (call : SendCall) :
    Option Text :=
  match answer with
  | .sent _ => if call.reaches then some ((data.elements memory).take (toNativeBufLen data.size)) else none
  | .failed _ => none

/-- How the calls end whose message is sent without its end. -/
def cutOutcome : SendCall → SendOutcome
  | .trySend | .send => .returned true
  | .trySendto _ => .terminated
  | .trySendtoDefault _ | .sendto _ _ => .narrowingError

end SendCall

/-- With datagrams, either the full message is sent, or the call failed. -/
def SendOutcome.Truthful (message : Text) (transmitted : Option Text) : SendOutcome → Prop
  | .returned true => transmitted = some message
  | .returned false | .thrown _ => transmitted = none
  | .narrowingError | .terminated => False

/-- No operating system sends a datagram of `2^31` bytes. -/
def Short (answer : SendAnswer) (data : ArrayView) : Prop :=
  ∀ errno, answer = .sent errno → toNativeBufLen data.size < 2 ^ 31

variable {strerror : Int → Text} {answer : SendAnswer} {data : ArrayView} {memory : Pointer → UInt8}

/-- The length of the buffer loses the upper half of the size. -/
theorem toNativeBufLen_eq (size : SizeT) : toNativeBufLen size = size.toNat % 2 ^ 32 := by
  have residue : (size.toNat : Int).bmod (2 ^ 32) % (2 ^ 32 : Nat) = size.toNat % (2 ^ 32 : Nat) :=
    Int.bmod_emod
  rw [toNativeBufLen, IntType.convert_unsigned rfl]
  simp only [IntType.convert, IntType.int, IntType.uint32, if_true]
  omega

theorem remaining_eq (res : ReturnValue Int) (data : ArrayView) :
    ∃ rest, RaiiSocket.remaining res data = some ⟨rest, res⟩ := by
  simp only [RaiiSocket.remaining, ArrayView.subviewFrom_eq, Option.map_some]
  exact ⟨_, rfl⟩

/-- The port layer hands on the length of a short datagram. -/
theorem sendDatagram_sent {errno : ErrorCode} (short : toNativeBufLen data.size < 2 ^ 31) :
    PortLayer.sendDatagram (.sent errno) data = .ok (toNativeBufLen data.size : Int) := by
  have nonnegative : (toNativeBufLen data.size : Int) ≠ -1 := by omega
  simp only [PortLayer.sendDatagram, Tcp.int_convert_small short, makeReturnValue, if_pos nonnegative]

theorem sendDatagram_failed (code : ErrorCode) (data : ArrayView) :
    PortLayer.sendDatagram (.failed code) data = .error code := by
  simp [PortLayer.sendDatagram, makeReturnValue]

theorem txWasSuccess_ok (rest : ArrayView) (value : Int) :
    Tcp.txWasSuccess data ⟨rest, .ok value⟩ =
      if data.size.toNat < 2 ^ 31 then some ((data.size.toNat : Int) == value) else none := by
  simp only [Tcp.txWasSuccess, Tcp.narrow_eq]
  split <;> rfl

/-- The functions with an endpoint compare the sizes in an `int`. -/
theorem txWasSuccess_whole (rest : ArrayView) :
    Tcp.txWasSuccess data ⟨rest, .ok (toNativeBufLen data.size)⟩ =
      if data.size.toNat < 2 ^ 31 then some true else none := by
  rw [txWasSuccess_ok]
  split
  · rename_i fits
    rw [Tcp.toNativeBufLen_small fits, beq_self_eq_true]
  · rfl

section Results

variable {rest : ArrayView} {res : ReturnValue Int} {addr : Sockaddr}

theorem trySend_eq (sent : RaiiSocket.sendDatagram answer data = some ⟨rest, res⟩) :
    trySend answer data = .returned res.isOk := by
  rw [trySend, sent]

theorem send_eq (sent : RaiiSocket.sendDatagram answer data = some ⟨rest, res⟩) :
    send strerror answer data =
      if res.isOk then .returned true
      else .thrown (makeErrorMessage strerror res.errorCode [ascii "Failed to send data. Details:  "]) := by
  rw [send, sent]

theorem trySendto_eq (sent : RaiiSocket.sendto answer data addr = some ⟨rest, res⟩) :
    trySendto answer data addr =
      match Tcp.txWasSuccess data ⟨rest, res⟩ with
      | none => .terminated
      | some success => .returned success := by
  rw [trySendto, sent]

theorem trySendtoDefault_eq (sent : RaiiSocket.sendto answer data addr = some ⟨rest, res⟩) :
    trySendtoDefault answer data addr =
      match Tcp.txWasSuccess data ⟨rest, res⟩ with
      | none => .narrowingError
      | some success => .returned success := by
  rw [trySendtoDefault, sent]

theorem sendto_eq {shown : Text} (sent : RaiiSocket.sendto answer data addr = some ⟨rest, res⟩) :
    sendto strerror shown answer data addr =
      match Tcp.txWasSuccess data ⟨rest, res⟩ with
      | none => .narrowingError
      | some true => .returned true
      | some false => .thrown (makeErrorMessage strerror res.errorCode
          [ascii "Failed to send data to ", shown, ascii ". Details:  "]) := by
  rw [sendto, sent]

end Results

/-- Only the functions with an endpoint compare the sizes. -/
theorem run_sent {call : SendCall}
    (sent : PortLayer.sendDatagram answer data = .ok (toNativeBufLen data.size : Int))
    (reaches : call.reaches = true) :
    call.run strerror answer data =
      if data.size.toNat < 2 ^ 31 then .returned true else call.cutOutcome := by
  obtain ⟨rest, remaining⟩ := remaining_eq (.ok (toNativeBufLen data.size : Int)) data
  have direct : RaiiSocket.sendDatagram answer data = some ⟨rest, .ok (toNativeBufLen data.size)⟩ := by
    rw [RaiiSocket.sendDatagram, sent, remaining]
  have addressed (addr : Sockaddr) (valid : (!isInvalidDestinationAddress addr) = true) :
      RaiiSocket.sendto answer data addr = some ⟨rest, .ok (toNativeBufLen data.size)⟩ := by
    rw [Bool.not_eq_true'] at valid
    rw [RaiiSocket.sendto, PortLayer.sendto, valid, if_neg Bool.false_ne_true, sent, remaining]
  by_cases fits : data.size.toNat < 2 ^ 31
  · rw [if_pos fits]
    cases call with
    | trySend => exact trySend_eq direct
    | send => exact send_eq direct
    | trySendto addr =>
      rw [SendCall.run, trySendto_eq (addressed addr reaches), txWasSuccess_whole, if_pos fits]
    | trySendtoDefault addr =>
      rw [SendCall.run, trySendtoDefault_eq (addressed addr reaches), txWasSuccess_whole,
        if_pos fits]
    | sendto shown addr =>
      rw [SendCall.run, sendto_eq (addressed addr reaches), txWasSuccess_whole, if_pos fits]
  · rw [if_neg fits]
    cases call with
    | trySend => exact trySend_eq direct
    | send => exact send_eq direct
    | trySendto addr =>
        rw [SendCall.run, trySendto_eq (addressed addr reaches), txWasSuccess_whole, if_neg fits]
        rfl
    | trySendtoDefault addr =>
        rw [SendCall.run, trySendtoDefault_eq (addressed addr reaches), txWasSuccess_whole, if_neg fits]
        rfl
    | sendto shown addr =>
        rw [SendCall.run, sendto_eq (addressed addr reaches), txWasSuccess_whole, if_neg fits]
        rfl

/-- The port layer refuses an invalid destination, or hands on the error of the operating system. -/
theorem sendto_error {code : ErrorCode} {addr : Sockaddr}
    (direct : (!isInvalidDestinationAddress addr) = true → PortLayer.sendDatagram answer data = .error code) :
    ∃ rest code, RaiiSocket.sendto answer data addr = some ⟨rest, .error code⟩ := by
  rw [RaiiSocket.sendto, PortLayer.sendto]
  cases invalid : isInvalidDestinationAddress addr with
  | true =>
      obtain ⟨rest, remaining⟩ := remaining_eq (.error .invalidArgument) data
      exact ⟨rest, .invalidArgument, remaining⟩
  | false =>
      obtain ⟨rest, remaining⟩ := remaining_eq (.error code) data
      have valid : (!isInvalidDestinationAddress addr) = true := by rw [invalid]; rfl
      rw [direct valid]
      exact ⟨rest, code, remaining⟩

/-- An error of the port layer is a failure of each call. -/
theorem run_error {call : SendCall} {code : ErrorCode}
    (direct : call.reaches = true → PortLayer.sendDatagram answer data = .error code) :
    call.run strerror answer data = .returned false ∨
      ∃ message, call.run strerror answer data = .thrown message := by
  cases call with
  | trySend =>
      obtain ⟨rest, remaining⟩ := remaining_eq (.error code) data
      rw [← direct rfl] at remaining
      rw [SendCall.run, trySend_eq remaining, direct rfl]
      exact .inl rfl
  | send =>
      obtain ⟨rest, remaining⟩ := remaining_eq (.error code) data
      rw [← direct rfl] at remaining
      rw [SendCall.run, send_eq remaining, direct rfl]
      exact .inr ⟨_, rfl⟩
  | trySendto addr =>
      obtain ⟨rest, code, sent⟩ := sendto_error direct
      exact .inl (trySendto_eq sent)
  | trySendtoDefault epRemote =>
      obtain ⟨rest, code, sent⟩ := sendto_error direct
      exact .inl (trySendtoDefault_eq sent)
  | sendto shown addr =>
      obtain ⟨rest, code, sent⟩ := sendto_error direct
      exact .inr ⟨_, sendto_eq sent⟩

/-- A call that sends nothing says so. -/
theorem run_unsent (strerror : Int → Text) {call : SendCall}
    (unsent : call.transmitted memory answer data = none) :
    call.run strerror answer data = .returned false ∨
      ∃ message, call.run strerror answer data = .thrown message := by
  cases answer with
  | failed code => exact run_error fun _ => sendDatagram_failed code data
  | sent errno =>
      have stays : call.reaches ≠ true := by
        intro reaches
        simp only [SendCall.transmitted, reaches, if_true, reduceCtorEq] at unsent
      have none : call.reaches = true → PortLayer.sendDatagram (.sent errno) data = .error .invalidArgument :=
        fun reaches => absurd reaches stays
      exact run_error none

theorem transmitted_eq_some {call : SendCall} {bytes : Text}
    (sent : call.transmitted memory answer data = some bytes) :
    ∃ errno, call.reaches = true ∧ answer = .sent errno ∧
      bytes = (data.elements memory).take (toNativeBufLen data.size) := by
  cases answer with
  | failed code => contradiction
  | sent errno =>
      simp only [SendCall.transmitted, Option.ite_none_right_eq_some, Option.some.injEq] at sent
      exact ⟨errno, sent.1, rfl, sent.2.symm⟩

/-- The message is sent as a whole exactly where the length of the buffer is its size. -/
theorem whole_iff (memory : Pointer → UInt8) (data : ArrayView) :
    (data.elements memory).take (toNativeBufLen data.size) = data.elements memory ↔
      data.size.toNat < 2 ^ 32 := by
  rw [List.take_eq_self_iff, ArrayView.elements, List.length_map, List.length_range, toNativeBufLen_eq]
  omega

/-- A short datagram of a message that is too large lacks its end, and the calls judge by the sizes. -/
theorem run_cut (strerror : Int → Text) {call : SendCall} {bytes : Text} (short : Short answer data)
    (large : 2 ^ 32 ≤ data.size.toNat) (sent : call.transmitted memory answer data = some bytes) :
    call.run strerror answer data = call.cutOutcome := by
  obtain ⟨errno, reaches, rfl, -⟩ := transmitted_eq_some sent
  have length : toNativeBufLen data.size < 2 ^ 31 := short errno rfl
  have unfit : ¬ data.size.toNat < 2 ^ 31 := by omega
  rw [run_sent (sendDatagram_sent length) reaches, if_neg unfit]

/-- Each call tells the truth about a message exactly where its size survives the conversion to the
length of a buffer, or nothing was sent. A larger message is sent up to its size modulo `2 ^ 32`, and then the
functions without an endpoint report success and those with one fail. -/
theorem send_truthful (strerror : Int → Text) (memory : Pointer → UInt8) (call : SendCall)
    (short : Short answer data) :
    ((call.run strerror answer data).Truthful (data.elements memory)
        (call.transmitted memory answer data) ↔
      data.size.toNat < 2 ^ 32 ∨ call.transmitted memory answer data = none) ∧
    (2 ^ 32 ≤ data.size.toNat → ∀ bytes, call.transmitted memory answer data = some bytes →
      bytes = (data.elements memory).take (data.size.toNat % 2 ^ 32) ∧
        call.run strerror answer data = call.cutOutcome) := by
  refine ⟨?_, ?_⟩
  · cases sent : call.transmitted memory answer data with
    | none =>
        refine iff_of_true ?_ (.inr rfl)
        rcases run_unsent strerror sent with ended | ⟨message, ended⟩
        · rw [ended]
          rfl
        · rw [ended]
          rfl
    | some bytes =>
        rw [or_iff_left (Option.some_ne_none bytes)]
        obtain ⟨errno, reaches, rfl, same⟩ := transmitted_eq_some sent
        have length : toNativeBufLen data.size < 2 ^ 31 := short errno rfl
        rw [same, run_sent (sendDatagram_sent length) reaches, ← whole_iff memory data]
        by_cases fits : data.size.toNat < 2 ^ 31
        · rw [if_pos fits]
          exact Option.some_inj
        · rw [if_neg fits]
          have shortened : ¬ (data.elements memory).take (toNativeBufLen data.size) = data.elements memory := by
            rw [whole_iff]
            intro small
            rw [toNativeBufLen_eq, Nat.mod_eq_of_lt small] at length
            exact fits length
          cases call with
          | trySend | send => exact Option.some_inj
          | trySendto addr | trySendtoDefault addr | sendto shown addr => exact iff_of_false id shortened
  · intro large bytes sent
    obtain ⟨errno, -, -, same⟩ := transmitted_eq_some sent
    rw [toNativeBufLen_eq] at same
    exact ⟨same, run_cut strerror short large sent⟩

/-- Three bytes for `127.0.0.1` are sent as a whole. -/
theorem send_truthful_three :
    let data : ArrayView := ⟨⟨some 0, 0⟩, 3⟩
    let call : SendCall := .trySendto (.inet ⟨⟨16777343⟩, ⟨20480⟩⟩)
    (call.run (fun _ => []) (.sent .noError) data).Truthful (data.elements fun _ => 65)
      (call.transmitted (fun _ => 65) (.sent .noError) data) := by
  intro data call
  have short : Short (.sent .noError) data := by
    intro errno _
    rw [Tcp.toNativeBufLen_small (by decide)]
    decide
  have small : data.size.toNat < 2 ^ 32 := by decide
  rw [(send_truthful (fun _ => []) (fun _ => 65) call short).1]
  left
  exact small

end Datagram

end MartCommon.Netlib
