import MartCommon.Netlib.DatagramInbox

namespace MartCommon.Netlib.Tcp

open Common Library PortLayer

/-- How `Socket::recv` ends. -/
inductive RecvOutcome where
  | received (data : ArrayView)
  | thrown (error : GenericNwError)
  | terminated

/-- The errors after which `Socket::recv` returns. -/
def expectedErrors : List ErrorCode := [.wouldBlock, .tryAgain, .timeout]

/-- `Socket::recv` -/
def recv (answer : RecvAnswer) (buffer : ArrayView) : RecvOutcome :=
  match RaiiSocket.recv answer buffer with
  | none => .terminated
  | some res =>
      match res.result with
      | .ok _ => .received res.receivedData
      | .error code =>
          if Datagram.isNoneOf expectedErrors code then
            .thrown ⟨code, ascii "Failed to receive data. Details:  ", none⟩
          else .received res.receivedData

/-- One direction of a connection: the bytes that are underway, whether the sender has closed it and whether it
was reset, and the memory of the receiver. -/
structure Stream where
  underway : Text := []
  closed : Bool := false
  broken : Bool := false
  memory : Pointer → UInt8

/-- A call at one of the ends, or what becomes of the connection. -/
inductive StreamEvent where
  | sent (data accepted : Text) (outcome : SendOutcome)
  | received (buffer : ArrayView) (answer : RecvAnswer) (taken : Text) (outcome : RecvOutcome)
      (memory : Pointer → UInt8)
  | closed
  | reset

/-- The program calls `send` and `recv` with the answers of the operating system. -/
inductive StreamAction where
  | send (memory : Pointer → UInt8) (data : ArrayView) (os : OsSend)
  | recv (buffer : ArrayView) (answer : RecvAnswer)
  | close
  | reset

/-- The bytes that the operating system accepted in the calls of a `send`. -/
def accepted (memory : Pointer → UInt8) (sent : List Sent) : Text :=
  (sent.flatMap Sent.acknowledged).map memory

/-- Whether the operating system gives the answer. It hands out bytes that are underway and fit into the
buffer, and none at all only for an empty buffer and at the end of the stream. -/
def Stream.Answers (stream : Stream) (buffer : ArrayView) : RecvAnswer → Prop
  | .failed _ => True
  | .datagram count _ =>
      count ≤ stream.underway.length ∧ count ≤ toNativeBufLen buffer.size ∧ count < 2 ^ 31 ∧
        (count = 0 → toNativeBufLen buffer.size = 0 ∨
          stream.underway = [] ∧ stream.closed = true ∧ stream.broken = false)

instance (stream : Stream) (buffer : ArrayView) (answer : RecvAnswer) :
    Decidable (stream.Answers buffer answer) :=
  match answer with
  | .failed _ => inferInstanceAs (Decidable True)
  | .datagram _ _ => inferInstanceAs (Decidable (_ ∧ _ ∧ _ ∧ (_ → _)))

/-- The number of bytes that a call takes from the stream. -/
def taken : RecvAnswer → Nat
  | .failed _ => 0
  | .datagram count _ => count

/-- A closed side accepts nothing more, and a connection that was reset loses what is underway. -/
def streamStep (stream : Stream) : StreamAction → Option (StreamEvent × Stream)
  | .send memory data os =>
      let run := send os data
      let bytes := accepted memory run.1
      if stream.closed && !bytes.isEmpty then none
      else some (.sent (data.elements memory) bytes run.2,
        { stream with underway := if stream.broken then [] else stream.underway ++ bytes })
  | .recv buffer answer =>
      if stream.Answers buffer answer then
        let bytes := stream.underway.take (taken answer)
        let memory := Datagram.write stream.memory buffer.data bytes
        some (.received buffer answer bytes (recv answer buffer) memory,
          { stream with underway := stream.underway.drop (taken answer), memory := memory })
      else none
  | .close => if stream.closed then none else some (.closed, { stream with closed := true })
  | .reset => some (.reset, { stream with underway := [], broken := true })

def streamSystem : StepSystem Stream StreamAction StreamEvent := ⟨streamStep⟩

/-- All bytes that were accepted from the sender. -/
def acceptedBytes : List StreamEvent → Text :=
  List.flatMap fun event => match event with
    | .sent _ accepted _ => accepted
    | _ => []

/-- All bytes that were handed to the receiver. -/
def receivedBytes : List StreamEvent → Text :=
  List.flatMap fun event => match event with
    | .received _ _ taken _ _ => taken
    | _ => []

/-- What a call tells its caller. A `send` returns exactly when all of its bytes were accepted and their number
fits into an `int`. A `recv` shows the bytes that it took in the front of its buffer, and it throws exactly for
the errors that it does not expect. -/
def StreamEvent.Truthful : StreamEvent → Prop
  | .sent data accepted outcome =>
      accepted <+: data ∧ (outcome = .returned ↔ accepted = data ∧ data.length < 2 ^ 31)
  | .received buffer answer taken outcome memory =>
      match answer with
      | .datagram _ _ =>
          ∃ data : ArrayView, outcome = .received data ∧ data.data = buffer.data ∧
            data.elements memory = taken
      | .failed code =>
          taken = [] ∧ outcome = if code ∈ expectedErrors then .received {}
            else .thrown ⟨code, ascii "Failed to receive data. Details:  ", none⟩
  | .closed | .reset => True

theorem elements_eq (data : ArrayView) (memory : Pointer → UInt8) :
    data.elements memory = (places data).map memory := by
  rw [places, List.map_map]
  rfl

/-- The first bytes of a view are a front of them. -/
theorem range_front {data : ArrayView} {count : Nat} (within : count ≤ data.size.toNat) :
    (List.range count).map data.data.add <+: places data := by
  have front : List.range count = (List.range data.size.toNat).take count := by
    rw [List.take_range, Nat.min_eq_left within]
  rw [places, front]
  exact (List.take_prefix _ _).map _

/-- The accepted bytes are a front of the given ones. They are all of them exactly when `send` returns, where
their number fits into an `int`. -/
theorem send_accepted (os : OsSend) (data : ArrayView) :
    (send os data).1.flatMap Sent.acknowledged <+: places data ∧
      ((send os data).2 = .returned ↔
        ((send os data).1.flatMap Sent.acknowledged).length = data.size.toNat ∧
          data.size.toNat < 2 ^ 31) := by
  by_cases empty : data.size = 0
  · rw [send, sendLoop_empty empty, empty]
    exact ⟨List.nil_prefix, iff_of_true rfl ⟨rfl, by decide⟩⟩
  rw [send, sendLoop_once empty, List.flatMap_singleton]
  have result : (sendTurn os 0 data).1 =
      ⟨data.data, toNativeBufLen data.size, os.answer 0 (toNativeBufLen data.size)⟩ := rfl
  rw [result, Sent.acknowledged]
  dsimp only
  constructor
  · cases answer : os.answer 0 (toNativeBufLen data.size) with
    | error code => exact List.nil_prefix
    | ok count =>
        have within := (os.sendsSome _ _ _ answer).2
        exact range_front (Nat.le_trans within (Datagram.toNativeBufLen_le data.size))
  · cases turn : (sendTurn os 0 data).2 with
    | ok rest =>
        obtain ⟨small, whole, -⟩ := sendTurn_eq_ok_iff.mp turn
        rw [toNativeBufLen_small small, whole]
        refine iff_of_true rfl ⟨?_, small⟩
        rw [List.length_map, List.length_range]
    | error outcome =>
        refine iff_of_false (sendTurn_ends turn) ?_
        rintro ⟨all, small⟩
        rw [toNativeBufLen_small small] at all
        cases answer : os.answer 0 data.size.toNat with
        | error code =>
            rw [answer] at all
            exact empty (BitVec.eq_of_toNat_eq all.symm)
        | ok count =>
            rw [answer] at all
            dsimp only at all
            rw [List.length_map, List.length_range] at all
            rw [all] at answer
            rw [sendTurn_eq_ok_iff.mpr ⟨small, answer, rfl⟩] at turn
            contradiction

theorem truthful_send (os : OsSend) (data : ArrayView) (memory : Pointer → UInt8) :
    StreamEvent.Truthful
      (.sent (data.elements memory) (accepted memory (send os data).1) (send os data).2) := by
  obtain ⟨front, returns⟩ := send_accepted os data
  have shown := front.map memory
  have length : (data.elements memory).length = data.size.toNat := by
    rw [ArrayView.elements, List.length_map, List.length_range]
  rw [← elements_eq] at shown
  refine ⟨shown, returns.trans ?_⟩
  rw [length]
  refine and_congr_left fun _ => ⟨fun whole => ?_, fun whole => ?_⟩
  · apply shown.eq_of_length
    rw [length, List.length_map, whole]
  · rw [← length, ← whole, accepted, List.length_map]

/-- An answer of the operating system is handed on to the caller. -/
theorem truthful_recv {stream : Stream} {buffer : ArrayView} {answer : RecvAnswer}
    (answers : stream.Answers buffer answer) :
    StreamEvent.Truthful (.received buffer answer (stream.underway.take (taken answer)) (recv answer buffer)
      (Datagram.write stream.memory buffer.data (stream.underway.take (taken answer)))) := by
  cases answer with
  | datagram count errno =>
      obtain ⟨available, fits, short, -⟩ := answers
      have least : min count (toNativeBufLen buffer.size) = count := Nat.min_eq_left fits
      have front := Datagram.recv_front buffer errno short
      rw [least] at front
      refine ⟨⟨buffer.data, BitVec.ofNat 64 count⟩, ?_, rfl, ?_⟩
      · rw [recv, front]
      · apply Datagram.elements_write
        rw [BitVec.toNat_ofNat, Nat.mod_eq_of_lt (by omega), List.length_take, taken,
          Nat.min_eq_left available]
  | failed code =>
      refine ⟨List.take_zero, ?_⟩
      rw [recv, DgramSocket.recv_failed]
      dsimp only
      by_cases expected : code ∈ expectedErrors
      · rw [if_pos expected, if_neg fun noneOf => Datagram.isNoneOf_eq_true.mp noneOf expected]
      · rw [if_neg expected, if_pos (Datagram.isNoneOf_eq_true.mpr expected)]

section Runs

variable {history : List StreamEvent} {before after stream : Stream} {event : StreamEvent}
  {action : StreamAction} {memory : Pointer → UInt8}

theorem acceptedBytes_append (first second : List StreamEvent) :
    acceptedBytes (first ++ second) = acceptedBytes first ++ acceptedBytes second :=
  List.flatMap_append

theorem receivedBytes_append (first second : List StreamEvent) :
    receivedBytes (first ++ second) = receivedBytes first ++ receivedBytes second :=
  List.flatMap_append

/-- The bytes that are underway have been accepted and not yet been received. Nothing else is lost but by a
reset. -/
structure Carries (history : List StreamEvent) (stream : Stream) : Prop where
  front : receivedBytes history ++ stream.underway <+: acceptedBytes history
  whole : stream.broken = false → receivedBytes history ++ stream.underway = acceptedBytes history
  broken : stream.broken = true → stream.underway = []
  truthful : ∀ event ∈ history, event.Truthful

/-- A step keeps what is underway, but for what it hands out and what is accepted. -/
theorem Carries.next (carries : Carries history before) (told : event.Truthful)
    (moved : after.broken = false →
      receivedBytes [event] ++ after.underway = before.underway ++ acceptedBytes [event])
    (taken : receivedBytes [event] <+: before.underway)
    (torn : before.broken = true → after.broken = true) (lost : after.broken = true → after.underway = []) :
    Carries (history ++ [event]) after := by
  have whole : after.broken = false →
      receivedBytes (history ++ [event]) ++ after.underway = acceptedBytes (history ++ [event]) := by
    intro intact
    have earlier : before.broken = false := by
      rw [← Bool.not_eq_true]
      intro broken
      exact absurd (torn broken) (Bool.eq_false_iff.mp intact)
    rw [receivedBytes_append, acceptedBytes_append, List.append_assoc, moved intact, ← List.append_assoc,
      carries.whole earlier]
  refine ⟨?_, whole, lost, ?_⟩
  · cases broken : after.broken with
    | false =>
        rw [whole broken]
    | true =>
        rw [lost broken, List.append_nil, receivedBytes_append, acceptedBytes_append]
        have got := (List.prefix_append_right_inj (receivedBytes history)).mpr taken
        exact got.trans (carries.front.trans (List.prefix_append _ _))
  · intro found member
    rcases List.mem_append.mp member with earlier | now
    · exact carries.truthful found earlier
    · rw [List.mem_singleton.mp now]
      exact told

theorem Carries.step (carries : Carries history before)
    (stepped : streamStep before action = some (event, after)) : Carries (history ++ [event]) after := by
  cases action with
  | send memory data os =>
      obtain ⟨-, same⟩ := Option.ite_none_left_eq_some.mp stepped
      cases same
      refine carries.next (truthful_send os data memory) ?_ List.nil_prefix (fun broken => broken) ?_
      · intro intact
        show (if before.broken = true then [] else before.underway ++ _) = before.underway ++ (_ ++ [])
        rw [if_neg (Bool.eq_false_iff.mp intact), List.append_nil]
      · exact fun broken => if_pos broken
  | recv buffer answer =>
      obtain ⟨answers, same⟩ := Option.ite_none_right_eq_some.mp stepped
      cases same
      refine carries.next (truthful_recv answers) ?_ ?_ (fun broken => broken) ?_
      · intro intact
        show (_ ++ []) ++ _ = before.underway ++ []
        rw [List.append_nil, List.append_nil, List.take_append_drop]
      · show _ ++ [] <+: before.underway
        rw [List.append_nil]
        exact List.take_prefix _ _
      · intro broken
        show before.underway.drop (taken answer) = []
        rw [carries.broken broken, List.drop_nil]
  | close =>
      obtain ⟨-, same⟩ := Option.ite_none_left_eq_some.mp stepped
      cases same
      exact carries.next trivial (fun _ => (List.append_nil _).symm) List.nil_prefix (fun broken => broken)
        carries.broken
  | reset =>
      cases stepped
      refine carries.next trivial ?_ List.nil_prefix (fun _ => rfl) fun _ => rfl
      intro intact
      contradiction

/-- Behind the end of the sender nothing more is accepted. -/
structure Ends (history : List StreamEvent) (stream : Stream) : Prop where
  closed : stream.closed = true ↔ .closed ∈ history
  final : ∀ earlier later, history = earlier ++ .closed :: later → acceptedBytes later = []

/-- Only `close` closes a stream, and a closed one accepts nothing. -/
theorem closed_step (stepped : streamStep before action = some (event, after)) :
    (after.closed = true ↔ before.closed = true ∨ event = .closed) ∧
      (before.closed = true → acceptedBytes [event] = []) := by
  cases action with
  | send memory data os =>
      obtain ⟨silent, same⟩ := Option.ite_none_left_eq_some.mp stepped
      cases same
      refine ⟨(or_iff_left nofun).symm, fun closed => ?_⟩
      rw [closed, Bool.true_and, Bool.not_eq_true', Bool.not_eq_false, List.isEmpty_iff] at silent
      exact congrArg (· ++ []) silent
  | recv buffer answer =>
      obtain ⟨-, same⟩ := Option.ite_none_right_eq_some.mp stepped
      cases same
      exact ⟨(or_iff_left nofun).symm, fun _ => rfl⟩
  | close =>
      obtain ⟨-, same⟩ := Option.ite_none_left_eq_some.mp stepped
      cases same
      exact ⟨iff_of_true rfl (.inr rfl), fun _ => rfl⟩
  | reset =>
      cases stepped
      exact ⟨(or_iff_left nofun).symm, fun _ => rfl⟩

theorem Ends.step (ends : Ends history before)
    (stepped : streamStep before action = some (event, after)) : Ends (history ++ [event]) after := by
  obtain ⟨closes, silent⟩ := closed_step stepped
  constructor
  · rw [closes, ends.closed, List.mem_append, List.mem_singleton, eq_comm]
  · intro earlier later parts
    rcases List.eq_nil_or_concat later with rfl | ⟨front, last, rfl⟩
    · rfl
    · rw [List.concat_eq_append, ← List.cons_append, ← List.append_assoc] at parts
      obtain ⟨same, here⟩ := List.append_inj' parts rfl
      cases here
      have closed : before.closed = true := by
        rw [ends.closed, same]
        exact List.mem_append_right _ List.mem_cons_self
      rw [List.concat_eq_append, acceptedBytes_append, ends.final earlier front same, silent closed]
      rfl

theorem run_carries (run : streamSystem.Run { memory := memory } history stream) :
    Carries history stream ∧ Ends history stream := by
  apply run.invariant fun history stream => Carries history stream ∧ Ends history stream
  · refine ⟨⟨List.nil_prefix, fun _ => rfl, fun _ => rfl, ?_⟩, iff_of_false ?_ ?_, ?_⟩
    · intro event member
      contradiction
    · exact Bool.false_ne_true
    · exact List.not_mem_nil
    · intro earlier later parts
      simp at parts
  · intro history before action event after carried stepped
    exact ⟨carried.1.step stepped, carried.2.step stepped⟩

/-- In every run of the calls at both ends the receiver gets the bytes that were accepted from the sender, in
their order, each once and without gaps. Nothing is lost on the way unless the connection is reset. Each call
tells its caller what it did, and a `recv` that reports the end of the stream comes behind all bytes that are
ever accepted. -/
theorem stream_delivered (run : streamSystem.Run { memory := memory } history stream) :
    receivedBytes history <+: acceptedBytes history ∧
      (stream.broken = false → receivedBytes history ++ stream.underway = acceptedBytes history) ∧
      (∀ event ∈ history, event.Truthful) ∧
      ∀ earlier buffer errno taken outcome memory later,
        history = earlier ++ .received buffer (.datagram 0 errno) taken outcome memory :: later →
          toNativeBufLen buffer.size ≠ 0 → receivedBytes earlier = acceptedBytes history := by
  obtain ⟨carries, ends⟩ := run_carries run
  refine ⟨(List.prefix_append _ _).trans carries.front, carries.whole, carries.truthful, ?_⟩
  intro earlier buffer errno taken outcome memory later parts room
  obtain ⟨before, action, after, reached, stepped⟩ := run.split parts
  obtain ⟨carried, ended⟩ := run_carries reached
  have finished : before.underway = [] ∧ before.closed = true ∧ before.broken = false := by
    cases action with
    | send memory data os =>
        obtain ⟨-, same⟩ := Option.ite_none_left_eq_some.mp stepped
        cases same
    | recv buffer answer =>
        obtain ⟨answers, same⟩ := Option.ite_none_right_eq_some.mp stepped
        cases same
        exact (answers.2.2.2 rfl).resolve_left room
    | close =>
        obtain ⟨-, same⟩ := Option.ite_none_left_eq_some.mp stepped
        cases same
    | reset => cases stepped
  obtain ⟨empty, closed, intact⟩ := finished
  have all := carried.whole intact
  rw [empty, List.append_nil] at all
  obtain ⟨front, rest, closing⟩ := List.append_of_mem (ended.closed.mp closed)
  -- what follows the end of the sender is the rest of the history, which accepts nothing
  have final := ends.final front (rest ++ .received buffer (.datagram 0 errno) taken outcome memory :: later)
  rw [parts, closing, List.append_assoc, List.cons_append] at final
  have silent := final rfl
  rw [acceptedBytes_append] at silent
  rw [all, parts, acceptedBytes_append, (List.append_eq_nil_iff.mp silent).2, List.append_nil]

/-- A call of `recv` with an answer that the operating system gives. -/
theorem recv_step {buffer : ArrayView} {answer : RecvAnswer} (answers : stream.Answers buffer answer) :
    streamSystem.step stream (.recv buffer answer) =
      some (.received buffer answer (stream.underway.take (taken answer)) (recv answer buffer)
          (Datagram.write stream.memory buffer.data (stream.underway.take (taken answer))),
        { stream with
          underway := stream.underway.drop (taken answer)
          memory := Datagram.write stream.memory buffer.data (stream.underway.take (taken answer)) }) :=
  if_pos answers

/-- An operating system that sends all bytes at once. -/
def wholeOs : OsSend where
  answer _ length := .ok length
  errno _ := .noError
  sendsSome _ length count answered := by
    cases answered
    exact ⟨id, Nat.le_refl _⟩

/-- Three bytes are sent and the sender closes. The receiver has room for two of them at a time. -/
theorem stream_delivered_closed : ∃ history stream,
    streamSystem.Run { memory := fun _ => 0 } history stream ∧ acceptedBytes history = [0, 1, 2] ∧
      receivedBytes (history.take 4) = acceptedBytes history := by
  let data : ArrayView := ⟨⟨some 0, 0⟩, 3⟩
  let buffer : ArrayView := ⟨⟨some 1, 0⟩, 2⟩
  let numbers : Pointer → UInt8 := fun place => UInt8.ofNat place.index
  have three : toNativeBufLen data.size = 3 := toNativeBufLen_small (by decide)
  have two : toNativeBufLen buffer.size = 2 := toNativeBufLen_small (by decide)
  have sent : send wholeOs data = ([⟨data.data, 3, .ok 3⟩], .returned) := by
    have turn : (sendTurn wholeOs 0 data).1 =
        ⟨data.data, toNativeBufLen data.size, wholeOs.answer 0 (toNativeBufLen data.size)⟩ := rfl
    have next : (sendTurn wholeOs 0 data).2 = .ok ⟨data.data.add data.size.toNat, 0⟩ :=
      sendTurn_eq_ok_iff.mpr ⟨by decide, rfl, rfl⟩
    rw [send, sendLoop_once (by decide), next, turn, three]
    rfl
  have first : streamSystem.step { memory := fun _ => 0 } (.send numbers data wholeOs) =
      some (.sent [0, 1, 2] [0, 1, 2] .returned, { underway := [0, 1, 2], memory := fun _ => 0 }) := by
    simp only [streamSystem, streamStep, sent]
    rfl
  have second (memory : Pointer → UInt8) :
      Stream.Answers ⟨[0, 1, 2], false, false, memory⟩ buffer (.datagram 2 .noError) :=
    ⟨show 2 ≤ 3 by decide, by rw [two], by decide, fun zero => absurd zero (by decide)⟩
  have third (memory : Pointer → UInt8) :
      Stream.Answers ⟨[2], true, false, memory⟩ buffer (.datagram 1 .noError) :=
    ⟨Nat.le_refl 1, by rw [two]; decide, by decide, fun zero => absurd zero (by decide)⟩
  have fourth (memory : Pointer → UInt8) :
      Stream.Answers ⟨[], true, false, memory⟩ buffer (.datagram 0 .noError) :=
    ⟨Nat.zero_le _, Nat.zero_le _, by decide, fun _ => .inr ⟨rfl, rfl, rfl⟩⟩
  have closing (memory : Pointer → UInt8) : streamSystem.step ⟨[2], false, false, memory⟩ .close =
      some (.closed, ⟨[2], true, false, memory⟩) := rfl
  have opened : streamSystem.Run { memory := fun _ => 0 } [] { memory := fun _ => 0 } := .start
  have run := ((((opened.next first).next (recv_step (second _))).next (closing _)).next
    (recv_step (third _))).next (recv_step (fourth _))
  obtain ⟨-, -, -, ended⟩ := stream_delivered run
  exact ⟨_, _, run, rfl, ended _ buffer .noError _ _ _ [] rfl (by decide)⟩

end Runs

end MartCommon.Netlib.Tcp
