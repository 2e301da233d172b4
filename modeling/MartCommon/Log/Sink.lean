import MartCommon.Log.Logger
import Mathlib.Logic.Function.Basic

namespace MartCommon.Log

open Library Library.OutputStream

/-- A call of `writeToLog` behind its check of the level, or a call of `flush`. -/
inductive Request where
  | write (msg : Text) (lvl : Level)
  | flush
  deriving DecidableEq

/-- The characters that `_do_writeToLogImpl` gets. -/
def Request.text : Request → Text
  | .write msg _ => msg
  | .flush => []

/-- Errors and status messages are flushed at once. -/
def Request.flushes : Request → Bool
  | .write _ lvl => lvl.toUType ≤ Level.status.toUType
  | .flush => true

/-- An `ILogSink` with the output of its derived class: all characters that were written, and those that
were flushed. `_mux` names the thread that holds it. -/
structure LogSink (Thread : Type) where
  maxlvl : Level := .trace
  threadSafe : Bool := true
  mux : Option Thread := none
  written : Text := []
  flushed : Text := []

/-- Where a thread is inside a sink: in front of the test of `_threadSafe`, in front of the lock, in the
middle of the output, at the flush or at the end of the lock guard. The output appears one character
after the other. -/
inductive Stage where
  | choosing (request : Request)
  | waiting (request : Request)
  | writing (locked : Bool) (left : Text) (flushes : Bool)
  | flushing (locked : Bool)
  | unlocking
  deriving DecidableEq

namespace Stage

/-- The output functions are called up to the end of the lock guard. -/
def inside : Stage → Bool
  | .choosing _ => false
  | .waiting _ => false
  | .writing _ _ _ => true
  | .flushing _ => true
  | .unlocking => true

/-- The characters that are still to be written. -/
def left : Stage → Text
  | .writing _ left _ => left
  | _ => []

/-- The flush is still to come. -/
def owes : Stage → Bool
  | .writing _ _ flushes => flushes
  | .flushing _ => true
  | _ => false

/-- The output functions are called under the lock. -/
def guarded : Stage → Bool
  | .writing locked _ _ => locked
  | .flushing locked => locked
  | _ => true

/-- What comes behind the output. -/
def leave (locked : Bool) : Option Stage := if locked then some .unlocking else none

variable {Thread : Type} (thread : Thread)

/-- One step of a thread inside a sink, with the request whose output it begins. A thread without the
lock waits. -/
def step : Stage → LogSink Thread → Option (Option Request × Option Stage × LogSink Thread)
  | .choosing request, sink =>
      if sink.threadSafe then some (none, some (.waiting request), sink)
      else some (some request, some (.writing false request.text request.flushes), sink)
  | .waiting request, sink =>
      match sink.mux with
      | none => some (some request, some (.writing true request.text request.flushes),
          { sink with mux := some thread })
      | some _ => none
  | .writing locked (char :: left) flushes, sink =>
      some (none, some (.writing locked left flushes), { sink with written := sink.written ++ [char] })
  | .writing locked [] flushes, sink =>
      some (none, if flushes then some (.flushing locked) else leave locked, sink)
  | .flushing locked, sink => some (none, leave locked, { sink with flushed := sink.written })
  | .unlocking, sink => some (none, none, { sink with mux := none })

end Stage

/-- A thread that logs: the buffer of its loggers, the texts that the loop of `_writeBufferToSinks` has
yet to hand over, and the sink that it is inside of. -/
structure Writer (Sink : Type) where
  buffer : Stream := {}
  todo : List (Sink × Text × Level) := []
  busy : Option (Sink × Stage) := none

/-- Threads and the sinks that their loggers share. -/
structure Sinks (Sink Thread : Type) where
  sinks : Sink → LogSink Thread
  threads : Thread → Writer Sink := fun _ => {}

/-- What threads do: a call of `log`, a call of `flush`, the next step of either, or a change of a
sink. -/
inductive SinkAction (Sink Thread : Type) where
  | log (thread : Thread) (call : Call Sink)
  | flush (thread : Thread) (sink : Sink)
  | tick (thread : Thread)
  | setMaxlvl (sink : Sink) (lvl : Level)
  | enableThreadSafeMode (sink : Sink) (enable : Bool)

/-- What is seen of a step: the texts of a call of `log` for its sinks, a check of the level with its
outcome, or a request whose output begins. -/
inductive SinkEvent (Sink Thread : Type) where
  | silent
  | handed (thread : Thread) (texts : List (Sink × Text × Level))
  | checked (thread : Thread) (sink : Sink) (msg : Text) (lvl : Level) (passed : Bool)
  | entered (thread : Thread) (sink : Sink) (request : Request)

/-- A step inside a sink is seen where it begins the output of a request. -/
def SinkEvent.begun {Sink Thread : Type} (thread : Thread) (sink : Sink) :
    Option Request → SinkEvent Sink Thread
  | none => .silent
  | some request => .entered thread sink request

section System

variable {Sink Thread : Type} [DecidableEq Sink] [DecidableEq Thread]

/-- The texts that a call of `log` hands over with its level. -/
def Event.texts (lvl : Level) : Event Sink → List (Sink × Text × Level)
  | .completed handed => handed.map fun pair => (pair.1, pair.2, lvl)
  | _ => []

/-- Nothing is left to do for a thread. -/
def Writer.Idle (writer : Writer Sink) : Prop := writer.todo = [] ∧ writer.busy = none

instance (writer : Writer Sink) : Decidable writer.Idle :=
  inferInstanceAs (Decidable (writer.todo = [] ∧ writer.busy = none))

/-- `lvl > maxlvl` returns at once. -/
def LogSink.passes (sink : LogSink Thread) (lvl : Level) : Bool := lvl.toUType ≤ sink.maxlvl.toUType

/-- A thread goes on, inside a sink or with the next one of the loop. -/
def tick (state : Sinks Sink Thread) (thread : Thread) :
    Option (SinkEvent Sink Thread × Sinks Sink Thread) :=
  let writer := state.threads thread
  match writer.busy, writer.todo with
  | some (sink, stage), _ =>
      (stage.step thread (state.sinks sink)).map fun after =>
        (.begun thread sink after.1,
          { sinks := Function.update state.sinks sink after.2.2
            threads := Function.update state.threads thread
              { writer with busy := after.2.1.map fun stage => (sink, stage) } })
  | none, (sink, msg, lvl) :: rest =>
      let passed := (state.sinks sink).passes lvl
      some (.checked thread sink msg lvl passed, { state with
        threads := Function.update state.threads thread { writer with
          todo := rest
          busy := if passed then some (sink, .choosing (.write msg lvl)) else none } })
  | none, [] => none

/-- Any number of threads log into shared sinks. -/
def sinkSystem (Sink Thread : Type) [DecidableEq Sink] [DecidableEq Thread] :
    StepSystem (Sinks Sink Thread) (SinkAction Sink Thread) (SinkEvent Sink Thread) where
  step state
    | .log thread call =>
        let writer := state.threads thread
        if writer.Idle then
          let ended := Log.log call writer.buffer
          some (.handed thread (ended.1.texts call.lvl), { state with
            threads := Function.update state.threads thread
              { writer with buffer := ended.2, todo := ended.1.texts call.lvl } })
        else none
    | .flush thread sink =>
        let writer := state.threads thread
        if writer.Idle then
          some (.silent, { state with
            threads := Function.update state.threads thread
              { writer with busy := some (sink, .choosing .flush) } })
        else none
    | .tick thread => tick state thread
    | .setMaxlvl sink lvl =>
        some (.silent, { state with
          sinks := Function.update state.sinks sink { state.sinks sink with maxlvl := lvl } })
    | .enableThreadSafeMode sink enable =>
        some (.silent, { state with
          sinks := Function.update state.sinks sink { state.sinks sink with threadSafe := enable } })

/-- The requests whose output a sink has begun, in their order. -/
def requests (sink : Sink) (history : List (SinkEvent Sink Thread)) : List Request :=
  history.filterMap fun
    | .entered _ other request => if other = sink then some request else none
    | _ => none

end System

end MartCommon.Log
