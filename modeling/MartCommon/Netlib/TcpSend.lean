import MartCommon.Common.ArrayView
import MartCommon.Library.IntType
import MartCommon.Netlib.Acceptor

namespace MartCommon.Netlib

open Common Library PortLayer

/-- The answers of the operating system to the calls of `::send`, one after the other. A call that
reports no error sends some of the bytes, or none of no bytes, and leaves an old value in `errno`. -/
structure OsSend where
  answer : (turn length : Nat) → Except ErrorCode Nat
  errno : (turn : Nat) → ErrorCode
  sendsSome : ∀ turn length count, answer turn length = .ok count →
    (0 < length → 0 < count) ∧ count ≤ length

/-- A call of `::send` with its result. -/
structure Sent where
  data : Pointer
  length : Nat
  result : Except ErrorCode Nat
  deriving DecidableEq

/-- The places of the bytes that the operating system accepted. -/
def Sent.acknowledged (sent : Sent) : List Pointer :=
  match sent.result with
  | .ok count => (List.range count).map sent.data.add
  | .error _ => []

namespace PortLayer

/-- `to_native_buf_len` converts to an `int` and then to a `socklen_t`. -/
def toNativeBufLen (size : SizeT) : Nat :=
  (IntType.uint32.convert (IntType.int.convert size.toNat)).toNat

/-- `make_return_value( int{ -1 }, function_result )` -/
def makeReturnValue (functionResult : Int) (errno : ErrorCode) : ReturnValue Int :=
  if functionResult ≠ -1 then .ok functionResult else .error errno

/-- `port_layer::send` takes the result of the operating system as an `int`. -/
def send (os : OsSend) (turn : Nat) (buf : ArrayView) : Sent × ReturnValue Int :=
  let length := toNativeBufLen buf.size
  let result := os.answer turn length
  (⟨buf.data, length, result⟩,
    match result with
    | .ok count => makeReturnValue (IntType.int.convert count) (os.errno turn)
    | .error code => makeReturnValue (-1) code)

end PortLayer

/-- `RaiiSocket::SendResult` -/
structure SendResult where
  remainingData : ArrayView
  result : ReturnValue Int

/-- `RaiiSocket::send` ends the program when `subview` does. -/
def RaiiSocket.send (os : OsSend) (turn : Nat) (data : ArrayView) : Sent × Option SendResult :=
  let res := PortLayer.send os turn data
  let valueOr : Int := match res.2 with
    | .ok value => value
    | .error _ => 0
  (res.1, (data.subviewFrom (BitVec.ofInt 64 valueOr)).map fun remaining => ⟨remaining, res.2⟩)

namespace Tcp

/-- `mart::narrow<int>( u )` throws a `narrowing_error` where it gives no result. -/
def narrow (u : SizeT) : Option Int :=
  let t := IntType.int.convert u.toNat
  if t < 0 then none
  else if BitVec.ofInt 64 t ≠ u then none
  else some t

/-- `_txWasSuccess` compares the sizes only after a success. -/
def txWasSuccess (data : ArrayView) (ret : SendResult) : Option Bool :=
  match ret.result with
  | .ok value => (narrow data.size).map fun size => size == value
  | .error _ => some false

/-- How `Socket::send` ends. -/
inductive SendOutcome where
  | returned
  | thrown (error : GenericNwError)
  | narrowingError
  | terminated
  deriving DecidableEq

/-- The body of the loop in `Socket::send` gives the data that is left, or ends the function. -/
def sendTurn (os : OsSend) (turn : Nat) (data : ArrayView) : Sent × Except SendOutcome ArrayView :=
  let res := RaiiSocket.send os turn data
  (res.1,
    match res.2 with
    | none => .error .terminated
    | some ret =>
        match txWasSuccess data ret with
        | none => .error .narrowingError
        | some false =>
            .error (.thrown ⟨ret.result.errorCode, ascii "Failed to send data. Details:  ", none⟩)
        | some true => .ok ret.remainingData)

/-- An `int` keeps the small numbers. -/
theorem int_convert_small {value : Nat} (small : value < 2 ^ 31) :
    IntType.int.convert value = value := by
  have residue : (value : Int) % (2 ^ 32 : Nat) = value := by omega
  simp only [IntType.convert, IntType.int, if_true, Int.bmod, residue]
  rw [if_pos]
  omega

theorem int_convert_lt (value : Int) : IntType.int.convert value < 2 ^ 31 := by
  have below := Int.bmod_lt (x := value) (m := 2 ^ 32) (by decide)
  simp only [IntType.convert, IntType.int, if_true]
  omega

theorem toNativeBufLen_small {size : SizeT} (small : size.toNat < 2 ^ 31) :
    toNativeBufLen size = size.toNat := by
  rw [toNativeBufLen, int_convert_small small, IntType.convert_unsigned rfl]
  simp only [IntType.uint32]
  omega

/-- A size that does not fit into an `int` is an exception. -/
theorem narrow_eq (u : SizeT) :
    narrow u = if u.toNat < 2 ^ 31 then some (u.toNat : Int) else none := by
  unfold narrow
  by_cases small : u.toNat < 2 ^ 31
  · rw [if_pos small, int_convert_small small, if_neg (Int.not_lt.mpr (Int.natCast_nonneg _)),
      BitVec.ofInt_natCast, BitVec.ofNat_toNat, if_neg]
    simp
  · rw [if_neg small]
    by_cases negative : IntType.int.convert u.toNat < 0
    · simp only [if_pos negative]
    · have below := int_convert_lt u.toNat
      have different : BitVec.ofInt 64 (IntType.int.convert u.toNat) ≠ u := by
        intro same
        have same := congrArg BitVec.toNat same
        rw [BitVec.toNat_ofInt] at same
        omega
      simp only [if_neg negative, if_pos different]

/-- The port layer hands on the answer about a size that fits into an `int`. -/
theorem send_small (os : OsSend) (turn : Nat) {data : ArrayView} (small : data.size.toNat < 2 ^ 31) :
    (PortLayer.send os turn data).2 = (os.answer turn data.size.toNat).map Nat.cast := by
  simp only [PortLayer.send, toNativeBufLen_small small]
  cases answer : os.answer turn data.size.toNat with
  | error code => rfl
  | ok count =>
      have within := (os.sendsSome _ _ _ answer).2
      have nonnegative : (count : Int) ≠ -1 := by omega
      simp only [int_convert_small (within.trans_lt small), makeReturnValue, if_pos nonnegative,
        Except.map]

theorem txWasSuccess_eq_true {data : ArrayView} {ret : SendResult} :
    txWasSuccess data ret = some true ↔
      data.size.toNat < 2 ^ 31 ∧ ret.result = .ok (data.size.toNat : Int) := by
  rw [txWasSuccess, narrow_eq]
  cases ret.result with
  | error code => simp
  | ok value =>
      by_cases small : data.size.toNat < 2 ^ 31
      · rw [if_pos small, and_iff_right small, Except.ok.injEq]
        change some ((data.size.toNat : Int) == value) = some true ↔ _
        rw [Option.some.injEq, beq_iff_eq, eq_comm]
      · rw [if_neg small]
        exact iff_of_false nofun fun both => small both.1

theorem sendTurn_eq_ok {os : OsSend} {turn : Nat} {data rest : ArrayView} :
    (sendTurn os turn data).2 = .ok rest ↔
      ∃ ret, (RaiiSocket.send os turn data).2 = some ret ∧ txWasSuccess data ret = some true ∧
        ret.remainingData = rest := by
  simp only [sendTurn]
  cases (RaiiSocket.send os turn data).2 with
  | none => simp
  | some ret =>
      cases success : txWasSuccess data ret with
      | none => simp [success]
      | some flag => cases flag <;> simp [success]

/-- When all bytes are accepted, nothing remains. -/
theorem raiiSend_all {os : OsSend} {turn : Nat} {data : ArrayView}
    (all : (PortLayer.send os turn data).2 = .ok (data.size.toNat : Int)) :
    (RaiiSocket.send os turn data).2 =
      some ⟨⟨data.data.add data.size.toNat, 0⟩, .ok data.size.toNat⟩ := by
  have offset : BitVec.ofInt 64 (data.size.toNat : Int) = data.size := by
    rw [BitVec.ofInt_natCast, BitVec.ofNat_toNat, BitVec.setWidth_eq]
  simp only [RaiiSocket.send, all, offset, ArrayView.subviewFrom_eq, Option.map_some, BitVec.sub_self]
  rfl

/-- The loop goes on exactly when the operating system accepted all the bytes of a size that fits into
an `int`, and then no bytes are left. -/
theorem sendTurn_eq_ok_iff {os : OsSend} {turn : Nat} {data rest : ArrayView} :
    (sendTurn os turn data).2 = .ok rest ↔
      data.size.toNat < 2 ^ 31 ∧ os.answer turn data.size.toNat = .ok data.size.toNat ∧
        rest = ⟨data.data.add data.size.toNat, 0⟩ := by
  rw [sendTurn_eq_ok]
  constructor
  · rintro ⟨ret, sent, success, rfl⟩
    obtain ⟨small, accepted⟩ := txWasSuccess_eq_true.mp success
    have result : (PortLayer.send os turn data).2 = ret.result := by
      obtain ⟨remaining, -, rfl⟩ := Option.map_eq_some_iff.mp sent
      rfl
    have answered := result.trans accepted
    rw [raiiSend_all answered] at sent
    cases sent
    rw [send_small os turn small] at answered
    refine ⟨small, ?_, rfl⟩
    cases answer : os.answer turn data.size.toNat with
    | error code => simp only [answer, Except.map, reduceCtorEq] at answered
    | ok count =>
        simp only [answer, Except.map, Except.ok.injEq, Int.natCast_inj] at answered
        rw [answered]
  · rintro ⟨small, accepted, rfl⟩
    have all : (PortLayer.send os turn data).2 = .ok (data.size.toNat : Int) := by
      rw [send_small os turn small, accepted]
      rfl
    exact ⟨_, raiiSend_all all, txWasSuccess_eq_true.mpr ⟨small, rfl⟩, rfl⟩

theorem sendTurn_shrinks {os : OsSend} {turn : Nat} {data rest : ArrayView}
    (nonempty : ¬ data.empty = true) (next : (sendTurn os turn data).2 = .ok rest) :
    rest.size.toNat < data.size.toNat := by
  obtain ⟨-, -, rfl⟩ := sendTurn_eq_ok_iff.mp next
  rw [ArrayView.empty, beq_iff_eq] at nonempty
  exact Nat.pos_of_ne_zero fun zero => nonempty (BitVec.eq_of_toNat_eq zero)

/-- The loop in `Socket::send` with the calls to the operating system. -/
def sendLoop (os : OsSend) (turn : Nat) (data : ArrayView) : List Sent × SendOutcome :=
  if nonempty : data.empty = true then ([], .returned)
  else
    match next : sendTurn os turn data with
    | (sent, .error outcome) => ([sent], outcome)
    | (sent, .ok rest) =>
        have := sendTurn_shrinks nonempty (congrArg Prod.snd next)
        let (later, outcome) := sendLoop os (turn + 1) rest
        (sent :: later, outcome)
termination_by data.size.toNat

/-- `Socket::send` -/
def send (os : OsSend) (data : ArrayView) : List Sent × SendOutcome :=
  sendLoop os 0 data

/-- The places of all bytes of a view. -/
def places (data : ArrayView) : List Pointer :=
  (List.range data.size.toNat).map data.data.add

/-- What a caller expects of a call of `send`: the accepted bytes are the given ones in their order, and
only the operating system is a reason not to return. -/
structure Delivers (data : ArrayView) (run : List Sent × SendOutcome) : Prop where
  delivered : run.2 = .returned → run.1.flatMap Sent.acknowledged = places data
  throws : run.2 ≠ .returned → ∃ sent ∈ run.1, ∃ code, sent.result = .error code

/-- An empty view needs no call. -/
theorem sendLoop_empty {os : OsSend} {turn : Nat} {data : ArrayView} (empty : data.size = 0) :
    sendLoop os turn data = ([], .returned) := by
  rw [sendLoop, dif_pos]
  rw [ArrayView.empty, empty]
  rfl

/-- The loop ends after its first turn. -/
theorem sendLoop_once {os : OsSend} {turn : Nat} {data : ArrayView} (nonempty : data.size ≠ 0) :
    sendLoop os turn data = ([(sendTurn os turn data).1],
      match (sendTurn os turn data).2 with
      | .error outcome => outcome
      | .ok _ => .returned) := by
  rw [sendLoop, dif_neg]
  · split
    · rename_i sent outcome next
      rw [next]
    · rename_i sent rest next
      obtain ⟨-, -, rfl⟩ := sendTurn_eq_ok_iff.mp (congrArg Prod.snd next)
      simp only [sendLoop_empty, next]
  · rw [ArrayView.empty, beq_iff_eq]
    exact nonempty

/-- A turn that ends the function is no return. -/
theorem sendTurn_ends {os : OsSend} {turn : Nat} {data : ArrayView} {outcome : SendOutcome}
    (ended : (sendTurn os turn data).2 = .error outcome) : outcome ≠ .returned := by
  simp only [sendTurn] at ended
  split at ended
  · cases ended
    exact nofun
  · split at ended <;> cases ended <;> exact nofun

/-- A view is delivered exactly when it is empty, or the first call reports an error, or it accepts all
bytes at once and their number fits into an `int`. -/
theorem delivers_iff (os : OsSend) (data : ArrayView) :
    Delivers data (send os data) ↔
      data.size = 0 ∨ (∃ code, os.answer 0 (toNativeBufLen data.size) = .error code) ∨
        data.size.toNat < 2 ^ 31 ∧ os.answer 0 data.size.toNat = .ok data.size.toNat := by
  by_cases empty : data.size = 0
  · rw [send, sendLoop_empty empty]
    refine iff_of_true ⟨fun _ => ?_, fun thrown => absurd rfl thrown⟩ (.inl empty)
    rw [places, empty]
    rfl
  rw [send, sendLoop_once empty, or_iff_right empty]
  cases turn : (sendTurn os 0 data).2 with
  | ok rest =>
      obtain ⟨small, accepted, rfl⟩ := sendTurn_eq_ok_iff.mp turn
      refine iff_of_true ⟨fun _ => ?_, fun thrown => absurd rfl thrown⟩ (.inr ⟨small, accepted⟩)
      have result : (sendTurn os 0 data).1.result = .ok data.size.toNat := by
        rw [← accepted, ← toNativeBufLen_small small]
        rfl
      rw [List.flatMap_singleton, Sent.acknowledged, result]
      rfl
  | error outcome =>
      have ended := sendTurn_ends turn
      constructor
      · intro delivers
        obtain ⟨sent, member, code, failed⟩ := delivers.throws ended
        cases List.mem_singleton.mp member
        exact .inl ⟨code, failed⟩
      · rintro (⟨code, failed⟩ | ⟨small, accepted⟩)
        · exact ⟨fun returned => absurd returned ended,
            fun _ => ⟨_, List.mem_singleton_self _, code, failed⟩⟩
        · rw [sendTurn_eq_ok_iff.mpr ⟨small, accepted, rfl⟩] at turn
          contradiction

/-- An operating system that sends one byte with every call. -/
def bytewise : OsSend where
  answer _ length := .ok (min 1 length)
  errno _ := .noError
  sendsSome _ length count answered := by
    cases answered
    omega

/-- One of two bytes is sent, and `send` throws an exception that says that there is no error. -/
theorem delivers_short :
    let data : ArrayView := ⟨⟨some 0, 0⟩, 2⟩
    ¬ Delivers data (send bytewise data) ∧
      send bytewise data = ([⟨⟨some 0, 0⟩, 2, .ok 1⟩],
        .thrown ⟨.noError, ascii "Failed to send data. Details:  ", none⟩) := by
  have run : send bytewise ⟨⟨some 0, 0⟩, 2⟩ = ([⟨⟨some 0, 0⟩, 2, .ok 1⟩],
      .thrown ⟨.noError, ascii "Failed to send data. Details:  ", none⟩) := by
    rw [send, sendLoop_once (by decide)]
    rfl
  refine ⟨fun delivers => ?_, run⟩
  rw [run] at delivers
  obtain ⟨sent, member, code, failed⟩ := delivers.throws nofun
  cases List.mem_singleton.mp member
  contradiction

end Tcp

end MartCommon.Netlib
