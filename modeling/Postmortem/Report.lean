import Postmortem.Banner
import Postmortem.Delivery
import Postmortem.LogFile
import Postmortem.Session

/-! # Reports

A report creates a log file, writes a preamble into it, announces it on the error stream and hands
the file to the postmortem command, which appends the stack and whatever else it finds. One report
is made at a time: a thread that asks while another is reporting has to ask again, and one that asks
while it is reporting itself is refused, for then the report has crashed.

A report need not come to its end. If a debugger is to have the process, it gets it and that is the
end of the process; a command without a timeout that never ends is waited for without end; and a
timeout that cannot be counted makes the thread panic.
-/

namespace Postmortem

/-- What is reported. A fatal report is about a process that is going to end. -/
structure Report where
  fatal : Bool
  reason : CString
  message : Option CString
  extra : Option CString
  deriving Repr, DecidableEq

namespace Report

/-- How many extra lines the announcement shows. -/
def previewLines : Nat := 3

/-- The environment variable that provides the postmortem command. -/
def override : CString := .text "ARCH_POSTMORTEM"

/-- A text with a line feed after it. -/
def line (text : CString) : Fragments := [text.bytes, [Bytes.newline]]

/-- A text as a line, if there is one. -/
def optionalLine : Option CString → Fragments
  | some text => line text
  | none => []

/-- Why the report was made. -/
def reasonLine (reason : CString) : Fragments :=
  utf8 "This stack trace was requested because: " :: line reason

/-- What a log file begins with. What the postmortem command appends comes after it. -/
def preamble (w : World) (reason : CString) (message extra : Option CString) : Fragments :=
  reasonLine reason ++ optionalLine message ++ w.context.extraText w.lines none
    ++ optionalLine extra ++ [utf8 "\nPostmortem Stack Trace\n"]

/-- What the error stream shows before the postmortem command is run. The last line is left open. -/
def announcement (w : World) (banner : Banner) (program reason : CString)
    (message : Option CString) (logName : CString) : Fragments :=
  banner.header program.bytes ++ w.context.programInfoText ++ reasonLine reason
    ++ optionalLine message
    ++ [utf8 "writing crash report to [ ", w.machine.hostText, utf8 ":", logName.bytes,
        utf8 " ] ..."]

/-- What the error stream shows after the postmortem command was run. -/
def closing (w : World) (banner : Banner) : Fragments :=
  utf8 " done.\n" :: w.context.extraText w.lines (some previewLines) ++ banner.footer

/-- What the error stream shows if there is no log file. -/
def noLogFile : Bytes := utf8 "Cannot create a log file\n"

/-- What the arguments of the postmortem command may stand for. -/
def substitutions (logName reason : CString) (w : World) : Substitutions :=
  [w.pidEntry, (.text "$log", logName), w.timeEntry, (.text "$reason", reason)]

/-- Runs the postmortem command on a log file; true if one was run, whatever became of it. -/
def runPostmortem (r : Report) (logName : CString) : Steps World (Except Halt Bool) :=
  World.runCommand World.childEnded (fun c => (c.postmortem, c.postmortemTimeout)) override r.fatal
    (substitutions logName r.reason) "postmortem"

/-- Remembers that the process is crashing. -/
def markCrashing (w : World) : World := { w with context := { w.context with crashing := true } }

/-- The report once its postmortem command, if one was run, is done with. -/
def concluded (banner : Banner) (program logName : CString) (ran : Bool) :
    Steps World (Except Halt Unit) := do
  let text ← Steps.look fun w => closing w banner
  World.say text
  if ran then Session.finish World.childEnded program logName none true else return .ok ()

/-- The report once its log file is there. -/
def writeTo (r : Report) (program logName : CString) : Steps World (Except Halt Unit) := do
  let text ← Steps.look fun w => preamble w r.reason r.message r.extra
  World.append logName.bytes text
  let banner := Banner.ofProgram program.bytes
  let text ← Steps.look fun w => announcement w banner program r.reason r.message logName
  World.say text
  (r.runPostmortem logName).andThen (concluded banner program logName)

/-- The report once the search for its log file has come to an end. -/
def continued (r : Report) (program : CString) :
    Except LogFileError CString → Steps World (Except Halt Unit)
  | .ok logName => r.writeTo program logName
  | .error e => do
    World.say [noLogFile]
    World.machineStep fun m => { m with errno := e.errno }
    return .ok ()

/-- The report if no debugger gets the process. -/
def written (r : Report) : Steps World (Except Halt Unit) := do
  let names ← Steps.look (·.context.reportNames)
  let pid ← Steps.look (·.machine.pid)
  let result ← World.onMachine (LogFile.create names.directory names.stem names.programName pid)
  r.continued names.programName result

/-- The process stops in the debugger, and is not to go on after that. -/
def surrender : Steps World (Except Halt Unit) := do
  World.machineStep (·.finish (.exited 0))
  return .error .ended

/-- The report of a process that has been marked, if it had to be. A debugger goes before it. -/
def unmarked (r : Report) : Steps World (Except Halt Unit) := do
  if ← Steps.look World.trapped then surrender else r.written

/-- The report of a thread that has the lock. -/
def make (r : Report) : Steps World (Except Halt Unit) := do
  if r.fatal then Steps.change markCrashing
  r.unmarked

/-- One attempt of a thread to get the report lock. -/
def ask (me : ThreadId) (w : World) : Attempt × World :=
  let (attempt, lock) := w.context.reportLock.attempt me
  (attempt, { w with context := { w.context with reportLock := lock } })

/-- The thread that has the report lock lets go of it. -/
def leave (w : World) : World :=
  { w with context := { w.context with reportLock := w.context.reportLock.release } }

/-- Does the thread let go of the lock after its report? It does when it returns and when it
    panics. -/
def leaves : Except Halt Unit → Bool
  | .ok () => true
  | .error .panicked => true
  | .error .waiting => false
  | .error .ended => false

/-- The report of a thread that has the lock, up to where it lets go of it. -/
def makeAndLeave (r : Report) : Steps World (Except Halt Unit) := do
  let result ← r.make
  if leaves result then Steps.change leave
  return result

/-- What a thread does after an attempt: it makes the report if it has got the lock. -/
def afterAttempt (r : Report) : Attempt → Steps World (Except Halt Unit)
  | .acquired => r.makeAndLeave
  | .refused => return .ok ()
  | .retry => return .ok ()

/-- A thread asks for the lock once and makes the report if it gets it. After `retry` the thread has
    to ask again. -/
def log (r : Report) (me : ThreadId) : Steps World (Except Halt Attempt) := do
  let attempt ← Steps.act (ask me)
  (r.afterAttempt attempt).andThen fun _ => return .ok attempt

end Report

end Postmortem
