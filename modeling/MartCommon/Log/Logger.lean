import MartCommon.Library.OutputStream
import MartCommon.Library.StepSystem

namespace MartCommon.Log

open Library Library.OutputStream

inductive Level where
  | error
  | status
  | debug
  | trace
  deriving DecidableEq

def Level.toUType : Level → Nat
  | .error => 0
  | .status => 1
  | .debug => 2
  | .trace => 3

/-- `to_string_view` -/
def Level.toStringView : Level → Text
  | .error => ascii "ERROR"
  | .status => ascii "STATUS"
  | .debug => ascii "DEBUG"
  | .trace => ascii "TRACE"

/-- `AddNewline` -/
inductive AddNewline where
  | no
  | yes
  deriving DecidableEq

/-- The members of a `Logger` that its log functions read. -/
structure Logger (Sink : Type) where
  currentLogLevel : Level := .status
  enabled : Bool := true
  sinks : List Sink := []
  loggingName : Text
  spacer : Text := []

/-- `formatForLog( out, const Level& value )` -/
def formatLevel (value : Level) : Inserter :=
  insertAll [left, setw 6, insertText value.toStringView]

/-- `defaultFormatForLog( out, std::chrono::milliseconds value )` -/
def formatMilliseconds (value : Int) : Inserter :=
  insertAll [insertInteger value, insertText (ascii "ms")]

/-- `formatForLog( out, std::thread::id id )`. How a stream shows the id is left to the library. -/
def formatThreadId (id : Inserter) : Inserter :=
  savingFlags (insertAll [insertText (ascii "0x"), hex, id])

/-- A call of `log` with what it finds: its logger, the time that has passed since the start of the
logger, the id of the thread, and how its arguments are formatted. -/
structure Call (Sink : Type) where
  logger : Logger Sink
  lvl : Level
  passed : Int
  threadId : Inserter
  args : List Inserter

variable {Sink : Type}

namespace Call

variable (call : Call Sink)

/-- `_shouldBeLogged` -/
def shouldBeLogged : Bool :=
  call.logger.enabled && call.lvl.toUType ≤ call.logger.currentLogLevel.toUType

/-- The level, the time and the name at the front of a line. -/
def linePrefix : Inserter :=
  insertAll [formatLevel call.lvl, insertText (ascii " - At "), setw 7, formatMilliseconds call.passed,
    insertText (ascii " - "), insertText call.logger.loggingName, insertText (ascii ": ")]

/-- The thread id and the spacer in trace mode. -/
def traceInfo : Inserter :=
  if call.logger.currentLogLevel = .trace then
    savingFlags (insertAll [insertText (ascii "[ThreadID: "), formatThreadId call.threadId,
      insertText (ascii "]: "), insertText call.logger.spacer])
  else insertAll []

/-- `buffer << '\n'` where it is requested. -/
def ending : AddNewline → Inserter
  | .no => insertAll []
  | .yes => insertText [10]

/-- `_fillBuffer` -/
def fillBuffer (newLine : AddNewline) : Inserter :=
  call.linePrefix.andThen (call.traceInfo.andThen ((insertAll call.args).andThen (ending newLine)))

end Call

/-- How a call ends: it is not to be logged, an exception leaves it, or its sinks got a text each. -/
inductive Event (Sink : Type) where
  | dropped
  | failed
  | completed (handed : List (Sink × Text))
  deriving DecidableEq

/-- `_writeBufferToSinks` -/
def writeBufferToSinks (logger : Logger Sink) (buffer : Stream) : List (Sink × Text) × Stream :=
  (logger.sinks.map fun sink => (sink, buffer.text), { buffer with text := [] })

/-- `log_impl`. An exception leaves the buffer as it is. -/
def logImpl (call : Call Sink) (buffer : Stream) : Event Sink × Stream :=
  let filled := buffer.insert (call.fillBuffer .yes)
  if (call.fillBuffer .yes buffer.format).throws then (.failed, filled)
  else
    let written := writeBufferToSinks call.logger filled
    (.completed written.1, written.2)

/-- `log` -/
def log (call : Call Sink) (buffer : Stream) : Event Sink × Stream :=
  if call.shouldBeLogged then logImpl call buffer else (.dropped, buffer)

/-- All loggers of a thread share one buffer. -/
def system (Sink : Type) : StepSystem Stream (Call Sink) (Event Sink) where
  step buffer call := some (log call buffer)

/-- The prefix, the arguments and the newline of a call, as a format of the stream shows them. A newline is
there also where an argument made the stream fail. -/
def Call.message (call : Call Sink) (format : Format) : Text :=
  let front := call.linePrefix.andThen call.traceInfo format
  let body := insertAll call.args front.format
  front.text ++ body.text ++ (Call.ending .yes { body.format with failed := false }).text

/-- None of its insertions makes the stream fail without an exception. Those of the prefix never do. -/
structure Call.Steady (call : Call Sink) : Prop where
  threadId : call.threadId.Steady
  args : ∀ argument ∈ call.args, argument.Steady

/-- No call failed since the last one that completed. -/
def settled (history : List (Event Sink)) : Bool :=
  history.foldl (fun before event =>
    match event with
    | .dropped => before
    | .failed => false
    | .completed _ => true) true

theorem settled_append (history : List (Event Sink)) (event : Event Sink) :
    settled (history ++ [event]) =
      match event with
      | .dropped => settled history
      | .failed => false
      | .completed _ => true := by
  rw [settled, List.foldl_append]
  rfl

section Filling

variable {call : Call Sink} {format : Format}

theorem Call.Steady.front (steady : call.Steady) : (call.linePrefix.andThen call.traceInfo).Steady := by
  have empty : (insertAll []).Steady := fun _ good => good
  have level : (formatLevel call.lvl).Steady :=
    steady_left.andThen ((steady_setw 6).andThen ((steady_insertText _).andThen empty))
  have time : (formatMilliseconds call.passed).Steady :=
    (steady_insertInteger _).andThen ((steady_insertText _).andThen empty)
  have thread : (formatThreadId call.threadId).Steady :=
    steady_savingFlags ((steady_insertText _).andThen (steady_hex.andThen (steady.threadId.andThen empty)))
  have trace : call.traceInfo.Steady := by
    rw [Call.traceInfo]
    split
    · exact steady_savingFlags ((steady_insertText _).andThen (thread.andThen
        ((steady_insertText _).andThen ((steady_insertText _).andThen empty))))
    · exact empty
  have line : call.linePrefix.Steady :=
    level.andThen ((steady_insertText _).andThen ((steady_setw 7).andThen (time.andThen
      ((steady_insertText _).andThen ((steady_insertText _).andThen
        ((steady_insertText _).andThen empty))))))
  exact line.andThen trace

theorem Call.Steady.fill (steady : call.Steady) : (call.fillBuffer .yes).Steady := by
  have front := steady.front
  rw [Call.fillBuffer, ← andThen_assoc]
  exact front.andThen ((steady_insertAll steady.args).andThen (steady_insertText _))

/-- A call that completes fills in its message, where nothing makes the stream fail. -/
theorem fillBuffer_completes (steady : call.Steady) (good : format.failed = false)
    (completes : (call.fillBuffer .yes format).throws = false) :
    (call.fillBuffer .yes format).text = call.message format := by
  have parts : call.fillBuffer .yes =
      ((call.linePrefix.andThen call.traceInfo).andThen (insertAll call.args)).andThen
        (Call.ending .yes) := by
    rw [Call.fillBuffer, andThen_assoc, andThen_assoc]
  rw [parts] at completes ⊢
  obtain ⟨body, -⟩ := completes_andThen.mp completes
  obtain ⟨front, -⟩ := completes_andThen.mp body
  have still := steady_insertAll steady.args _ (steady.front format good)
  rw [andThen_completes body, andThen_completes front, Call.message]
  dsimp only
  rw [← still]

/-- A call that fails has filled in its level at least. -/
theorem fillBuffer_nonempty (newLine : AddNewline) (good : format.failed = false) :
    (call.fillBuffer newLine format).text ≠ [] := by
  have level : (formatLevel call.lvl format).text ≠ [] := by
    apply List.ne_nil_of_length_pos
    have shown := length_le_pad { format with adjust := .left, width := 6 } [] call.lvl.toStringView
    have name : 0 < call.lvl.toStringView.length := by
      cases call.lvl <;> decide
    have text : insertText call.lvl.toStringView { format with adjust := .left, width := 6 } = _ :=
      formatted_good good
    have first : (formatLevel call.lvl format).text = [] ++ ([] ++
        (insertAll [insertText call.lvl.toStringView] { format with adjust := .left, width := 6 }).text) := rfl
    rw [first, insertAll, andThen_completes (by rw [text]), text]
    simp only [List.nil_append, insertAll, List.append_nil]
    exact Nat.lt_of_lt_of_le name shown
  have first : (formatLevel call.lvl format).text <+: (call.fillBuffer newLine format).text :=
    (andThen_begins _ _ format).trans (andThen_begins call.linePrefix _ format)
  exact fun none => level (List.prefix_nil.mp (none ▸ first))

/-- The first insertion sets the adjustment and the width. -/
theorem message_congr {other : Format} (same : format.settings = other.settings)
    (alike : format.failed = other.failed) : call.message format = call.message other := by
  have level : formatLevel call.lvl format = formatLevel call.lvl other := by
    cases format
    cases other
    cases same
    cases alike
    rfl
  have front : call.linePrefix.andThen call.traceInfo format =
      call.linePrefix.andThen call.traceInfo other := by
    rw [Call.linePrefix, insertAll, andThen_assoc]
    exact andThen_congr level
  rw [Call.message, Call.message, front]

end Filling

section Runs

variable {history : List (Event Sink)} {buffer after : Stream} {call : Call Sink} {calls : List (Call Sink)}
  {event : Event Sink} {handed : List (Sink × Text)}

/-- What a call hands over is what the buffer had, and what it has filled in. -/
theorem step_completed (logged : (system Sink).step buffer call = some (.completed handed, after)) :
    (call.fillBuffer .yes buffer.format).throws = false ∧
      handed = (call.logger.sinks.map fun sink =>
        (sink, buffer.text ++ (call.fillBuffer .yes buffer.format).text)) ∧ after.text = [] := by
  have ends := Option.some.inj logged
  rw [log] at ends
  split at ends
  · rw [logImpl] at ends
    split at ends
    · cases ends
    · rename_i completes
      obtain ⟨written, emptied⟩ := Prod.mk.inj ends
      refine ⟨Bool.eq_false_iff.mpr completes, ?_, ?_⟩
      · rw [← Event.completed.inj written, writeBufferToSinks, Stream.insert]
      · rw [← emptied, writeBufferToSinks]
  · cases ends

/-- A call that fails leaves a part of its message. -/
theorem step_failed (good : buffer.format.failed = false)
    (logged : (system Sink).step buffer call = some (.failed, after)) : after.text ≠ [] := by
  have ends := Option.some.inj logged
  rw [log] at ends
  split at ends
  · rw [logImpl] at ends
    split at ends
    · obtain ⟨-, rfl⟩ := Prod.mk.inj ends
      exact List.append_ne_nil_of_right_ne_nil _ (fillBuffer_nonempty .yes good)
    · cases ends
  · cases ends

theorem step_dropped (logged : (system Sink).step buffer call = some (.dropped, after)) :
    after = buffer := by
  have ends := Option.some.inj logged
  rw [log] at ends
  split at ends
  · rw [logImpl] at ends
    split at ends <;> cases ends
  · exact (Prod.mk.inj ends).2.symm

theorem log_format (call : Call Sink) (buffer : Stream) :
    (log call buffer).2.format =
      if call.shouldBeLogged then (call.fillBuffer .yes buffer.format).format else buffer.format := by
  rw [log]
  split
  · rw [logImpl]
    split <;> rfl
  · rfl

/-- Steady calls keep the stream from failing. -/
theorem step_good (steady : call.Steady) (good : buffer.format.failed = false)
    (logged : (system Sink).step buffer call = some (event, after)) : after.format.failed = false := by
  have ends : log call buffer = (event, after) := Option.some.inj logged
  have format := log_format call buffer
  rw [ends] at format
  rw [format]
  split
  · exact steady.fill _ good
  · exact good

/-- The stream has not failed, and it is empty as long as no call fails and again after each call that
completes. -/
structure Unspoilt (history : List (Event Sink)) (buffer : Stream) : Prop where
  good : buffer.format.failed = false
  empty : buffer.text = [] ↔ settled history = true

theorem Unspoilt.step (unspoilt : Unspoilt history buffer) (steady : call.Steady)
    (logged : (system Sink).step buffer call = some (event, after)) : Unspoilt (history ++ [event]) after where
  good := step_good steady unspoilt.good logged
  empty := by
    rw [settled_append]
    cases event with
    | dropped => rw [step_dropped logged, unspoilt.empty]
    | failed => exact iff_of_false (step_failed unspoilt.good logged) Bool.false_ne_true
    | completed handed => exact iff_of_true (step_completed logged).2.2 rfl

theorem run_unspoilt (steady : ∀ call ∈ calls, call.Steady)
    (executed : (system Sink).execute {} calls = some (history, buffer)) : Unspoilt history buffer := by
  change Unspoilt ([] ++ history) buffer
  refine StepSystem.execute_invariant Unspoilt ?_ steady ⟨rfl, iff_of_true rfl rfl⟩ executed
  exact fun _ _ _ _ _ steady unspoilt logged => unspoilt.step steady logged

/-- The second argument of this call throws behind a part of its text. -/
def failingCall : Call Nat where
  logger := { loggingName := ascii "[A]", sinks := [0] }
  lvl := .status
  passed := 5
  threadId := insertText (ascii "1")
  args := [insertText (ascii "x="), fun format => ⟨ascii "(1,", format, true⟩]

/-- A call through another logger. -/
def otherCall : Call Nat where
  logger := { loggingName := ascii "[B]", sinks := [1, 2] }
  lvl := .error
  passed := 70
  threadId := insertText (ascii "1")
  args := [insertText (ascii "ok")]

theorem steady_failingCall : failingCall.Steady := by
  refine ⟨steady_insertText _, ?_⟩
  intro argument member
  rcases List.mem_pair.mp member with rfl | rfl
  · exact steady_insertText _
  · exact fun _ good => good

theorem steady_otherCall : otherCall.Steady := by
  refine ⟨steady_insertText _, ?_⟩
  intro argument member
  rw [List.mem_singleton.mp member]
  exact steady_insertText _

end Runs

section Settings

/-- The arguments leave the flags, the fill character and the precision of the buffer as they were. -/
structure Call.Tidy (call : Call Sink) : Prop where
  threadId : call.threadId.KeepsPrecision
  args : ∀ argument ∈ call.args, argument.Keeps

theorem keeps_fillBuffer {call : Call Sink} (tidy : call.Tidy) : (call.fillBuffer .yes).Keeps := by
  have empty : (insertAll []).Keeps := fun _ => rfl
  have text (text : Text) : (insertText text).KeepsPrecision := (keeps_insertText text).precision
  have level : (formatLevel call.lvl).Keeps :=
    keeps_left.andThen ((keeps_setw 6).andThen ((keeps_insertText _).andThen empty))
  have time : (formatMilliseconds call.passed).Keeps :=
    (keeps_insertInteger _).andThen ((keeps_insertText _).andThen empty)
  have thread : (formatThreadId call.threadId).Keeps :=
    keeps_savingFlags ((text _).andThen (keepsPrecision_hex.andThen (tidy.threadId.andThen empty.precision)))
  have trace : call.traceInfo.Keeps := by
    rw [Call.traceInfo]
    split
    · exact keeps_savingFlags ((text _).andThen (thread.precision.andThen
        ((text _).andThen ((text _).andThen empty.precision))))
    · exact empty
  have front : call.linePrefix.Keeps :=
    level.andThen ((keeps_insertText _).andThen ((keeps_setw 7).andThen (time.andThen
      ((keeps_insertText _).andThen ((keeps_insertText _).andThen
        ((keeps_insertText _).andThen empty))))))
  exact front.andThen (trace.andThen ((keeps_insertAll tidy.args).andThen (keeps_insertText _)))

/-- Tidy calls leave no flags for the calls behind them. -/
theorem run_settings {calls : List (Call Sink)} {history : List (Event Sink)} {buffer : Stream}
    (tidy : ∀ call ∈ calls, call.Tidy)
    (executed : (system Sink).execute {} calls = some (history, buffer)) : buffer.format.settings = {} := by
  let plain (_ : List (Event Sink)) (buffer : Stream) : Prop := buffer.format.settings = {}
  refine @StepSystem.execute_invariant _ _ _ _ _ plain ?_ {} _ _ [] _ tidy rfl executed
  intro history before call event after tidy kept stepped
  have ends : log call before = (event, after) := Option.some.inj stepped
  have format := log_format call before
  rw [ends] at format
  change after.format.settings = {}
  rw [format]
  split
  · rw [keeps_fillBuffer tidy, kept]
  · exact kept

end Settings

end MartCommon.Log
