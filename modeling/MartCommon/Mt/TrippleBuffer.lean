import MartCommon.Mt.Mailbox

namespace MartCommon.Mt

open Library

/-- A slot number travels together with the flag of its last commit. -/
structure TrippleBuffer.Index where
  idx : Nat
  newData : Bool
  deriving DecidableEq, Repr

/-- The object holds three slots and three indices. A slot value is a record of words, so a half
written record is a value of its own. -/
structure TrippleBuffer (Field Word : Type*) where
  data : Nat → Field → Word
  readIdx : TrippleBuffer.Index := ⟨0, false⟩
  writeIdx : TrippleBuffer.Index := ⟨1, false⟩
  bufferIdx : TrippleBuffer.Index := ⟨2, false⟩

namespace TrippleBuffer

variable {Field Word : Type*}

/-- Both constructors put one value into all three slots. -/
def ofInit (init : Field → Word) : TrippleBuffer Field Word := { data := fun _ => init }

def getWriteBuffer (buffer : TrippleBuffer Field Word) : Field → Word :=
  buffer.data buffer.writeIdx.idx

def getReadBuffer (buffer : TrippleBuffer Field Word) : Field → Word :=
  buffer.data buffer.readIdx.idx

/-- The producer writes one word of `get_write_buffer()`. -/
def writeWord [DecidableEq Field] (buffer : TrippleBuffer Field Word) (field : Field)
    (word : Word) : TrippleBuffer Field Word :=
  { buffer with
    data := Function.update buffer.data buffer.writeIdx.idx
      (Function.update buffer.getWriteBuffer field word) }

/-- `write_idx.new_data = true` -/
def markNew (buffer : TrippleBuffer Field Word) : TrippleBuffer Field Word :=
  { buffer with writeIdx := { buffer.writeIdx with newData := true } }

/-- `write_idx = buffer_idx.exchange( write_idx )` -/
def exchangeWrite (buffer : TrippleBuffer Field Word) : TrippleBuffer Field Word :=
  { buffer with writeIdx := buffer.bufferIdx, bufferIdx := buffer.writeIdx }

/-- `read_idx.new_data = false` -/
def markOutdated (buffer : TrippleBuffer Field Word) : TrippleBuffer Field Word :=
  { buffer with readIdx := { buffer.readIdx with newData := false } }

/-- `read_idx = buffer_idx.exchange( read_idx )` -/
def exchangeRead (buffer : TrippleBuffer Field Word) : TrippleBuffer Field Word :=
  { buffer with readIdx := buffer.bufferIdx, bufferIdx := buffer.readIdx }

def commit (buffer : TrippleBuffer Field Word) : TrippleBuffer Field Word :=
  buffer.markNew.exchangeWrite

def fetchUpdate (buffer : TrippleBuffer Field Word) : Bool × TrippleBuffer Field Word :=
  if !buffer.bufferIdx.newData then (false, buffer)
  else (true, buffer.markOutdated.exchangeRead)

/-- The consumer is outside `fetch_update`, after its load, or after its flag reset. -/
inductive ConsumerPc where
  | outside
  | loaded
  | marked
  deriving DecidableEq, Repr

/-- The producer is outside `commit` or after its flag write. -/
inductive ProducerPc where
  | outside
  | marked
  deriving DecidableEq, Repr

/-- One producer thread and one consumer thread share the buffer. -/
structure State (Field Word : Type*) where
  buffer : TrippleBuffer Field Word
  producer : ProducerPc := .outside
  consumer : ConsumerPc := .outside

inductive Action (Field Word : Type*) where
  | writeWord (field : Field) (word : Word)
  | commitMark
  | commitExchange
  | fetchLoad
  | fetchMark
  | fetchExchange
  | readWord (field : Field)

variable [DecidableEq Field]

/-- Each action is one step of the thread that it names. The event carries the record that a
commit publishes, the record in the read slot after a successful fetch, or the word read. -/
def step (state : State Field Word) :
    Action Field Word → Option (Option (Mailbox.Event Field Word) × State Field Word)
  | .writeWord field word =>
      if state.producer = .outside then
        some (none, { state with buffer := state.buffer.writeWord field word })
      else none
  | .commitMark =>
      if state.producer = .outside then
        some (none, { state with buffer := state.buffer.markNew, producer := .marked })
      else none
  | .commitExchange =>
      if state.producer = .marked then
        some (some (.committed state.buffer.getWriteBuffer),
          { state with buffer := state.buffer.exchangeWrite, producer := .outside })
      else none
  | .fetchLoad =>
      if state.consumer = .outside then
        if state.buffer.bufferIdx.newData then some (none, { state with consumer := .loaded })
        else some (some .refused, state)
      else none
  | .fetchMark =>
      if state.consumer = .loaded then
        some (none, { state with buffer := state.buffer.markOutdated, consumer := .marked })
      else none
  | .fetchExchange =>
      if state.consumer = .marked then
        some (some (.fetched state.buffer.exchangeRead.getReadBuffer),
          { state with buffer := state.buffer.exchangeRead, consumer := .outside })
      else none
  | .readWord field =>
      if state.consumer = .outside then
        some (some (.saw field (state.buffer.getReadBuffer field)), state)
      else none

def system (Field Word : Type*) [DecidableEq Field] :
    StepSystem (State Field Word) (Action Field Word) (Option (Mailbox.Event Field Word)) := ⟨step⟩

def State.initial (init : Field → Word) : State Field Word := { buffer := .ofInit init }

/-- The steps of one `commit` without interference compute the member function. -/
theorem commit_steps (buffer : TrippleBuffer Field Word) :
    (system Field Word).execute { buffer } [.commitMark, .commitExchange] =
      some ([none, some (.committed buffer.getWriteBuffer)], { buffer := buffer.commit }) := rfl

/-- The steps of one successful `fetch_update` without interference compute the member function. -/
theorem fetchUpdate_steps (buffer : TrippleBuffer Field Word)
    (pending : buffer.bufferIdx.newData = true) :
    ∃ events, (system Field Word).execute { buffer } [.fetchLoad, .fetchMark, .fetchExchange] =
        some (events, { buffer := buffer.fetchUpdate.2 }) ∧ buffer.fetchUpdate.1 = true := by
  simp [StepSystem.execute, system, step, fetchUpdate, pending]

end TrippleBuffer

end MartCommon.Mt
