import Postmortem.Frames
import Postmortem.Handler

/-! # Stack traces in ordinary operation

The stack of the calling thread as lines, printed between two rules, or logged to a new file of its
own in the directory for temporary files. If there can be no file, the trace goes to the error
stream.
-/

namespace Postmortem.StackLog

/-- The rule around a stack trace. -/
def stackRule : Bytes := List.replicate 62 61

/-- The rule around a notice on the error stream. -/
def noticeRule : Bytes := List.replicate 62 Bytes.dash

/-- A text as a line. -/
def line (text : Bytes) : Bytes := text ++ [Bytes.newline]

/-- The return addresses of the caller's stack, at most `depth` of them. -/
def frames (w : World) (depth : Nat) : List Address :=
  Unwinder.callerFrames w.context.unwinder depth w.machine.stack

/-- The caller's stack, a line for each frame. -/
def lines (w : World) (depth : Nat) : List Bytes :=
  Frames.lines (w.context.currentSymbolizer w.machine) (frames w depth) false

/-- The caller's stack between two rules. -/
def trace (w : World) (program reason : Bytes) : Fragments :=
  [line stackRule,
   line (utf8 " A stack trace has been requested by " ++ program ++ utf8 " because: " ++ reason)]
    ++ Frames.printed (w.context.currentSymbolizer w.machine) (frames w Unwinder.maxDepth) false
    ++ [line stackRule]

/-- What the error stream shows before a file is created. -/
def notice (w : World) (program reason : Bytes) : Fragments :=
  [line noticeRule,
   line (utf8 "A stack trace has been requested by " ++ program ++ utf8 " because of " ++ reason)]
    ++ w.context.programInfoText

/-- Where the file is. -/
def whereabouts (w : World) (path : Bytes) : Fragments :=
  [line (utf8 "The stack can be found in " ++ Utf8.repair w.machine.hostText ++ utf8 ":"
    ++ Utf8.repair path), line noticeRule]

/-- A path continued by another, which stands for itself if it is absolute. -/
def join (directory path : Bytes) : Bytes :=
  if path.head? = some Bytes.slash then path
  else if directory.isEmpty || FileTree.endsInSlash directory then directory ++ path
  else directory ++ Bytes.slash :: path

/-- What the name of the file begins with, as an absolute path. -/
def fileStem (w : World) (names : Names) : Bytes :=
  let directory := join (Machine.absolute w.machine.working) names.directory.bytes
  join directory (Utf8.repair names.stem.bytes ++ utf8 "_" ++ Utf8.repair names.programName.bytes)

/-- Creates the file for a stack trace. -/
def createFile (names : Names) : Steps World (Except Errno Bytes) :=
  Steps.act fun w =>
    let (result, machine) := Machine.createTemp (fileStem w names) Machine.tempAttempts w.machine
    (result, { w with machine })

/-- What a stack trace in a file consists of. The extra lines belong to a fatal one. -/
def fileText (w : World) (program reason : Bytes) (fatal : Bool) : Fragments :=
  trace w program reason ++ if fatal then w.context.extraText w.lines none else []

/-- What a stack trace on the error stream consists of. -/
def fallbackText (w : World) (program reason : Bytes) : Fragments :=
  line noticeRule :: trace w program reason ++ w.context.extraText w.lines none

/-- The rule at the end of the notice. -/
def closed : Steps World (Except Halt Unit) := do
  World.say [line noticeRule]
  return .ok ()

/-- Logs the caller's stack to a new file and says where it is. A fatal trace is completed like the
    log file of a report; the session log is appended to it. -/
def log (me : ThreadId) (reason : Bytes) (fatal : Bool) (sessionLog : Option Bytes) :
    Steps World (Except Halt Unit) := do
  let names ← Steps.look (·.context.names.value)
  let program := Utf8.repair names.programName.bytes
  World.say (← Steps.look (notice · program reason))
  match ← createFile names with
  | .ok path =>
    World.say (← Steps.look (whereabouts · path))
    World.append path (← Steps.look (fileText · program reason fatal))
    (if fatal then
        Session.finish (Handler.childEnded me) (.untilNul program) (.untilNul path) sessionLog false
      else return .ok ()).andThen fun _ => closed
  | .error _ =>
    World.say (← Steps.look (fallbackText · program reason))
    closed

/-- Logs the caller's stack for a reason that need not be a valid text. -/
def logCString (me : ThreadId) (reason : CString) (fatal : Bool) :
    Steps World (Except Halt Unit) :=
  log me (Utf8.repair reason.bytes) fatal none

end Postmortem.StackLog
