import Postmortem.World

/-! # The session logger

A command that is told about the end of every session, and about the stack trace of every crash,
while fatal stack logging is on.
-/

namespace Postmortem.Session

/-- The environment variable that provides the command. -/
def override : CString := .text "ARCH_LOGSESSION"

/-- What the arguments of the command may stand for. Without a stack trace, `$stack` is left as it
    is. -/
def substitutions (program : CString) (stack : Option CString) (w : World) : Substitutions :=
  [w.pidEntry, w.timeEntry, (.text "$prog", program)]
    ++ match stack with
      | some path => [(.text "$stack", path)]
      | none => []

/-- Runs the session logger; the template for crashes is used if there is a stack trace. -/
def invoke (childEnded : Steps World (Except Halt Unit)) (program : CString)
    (stack : Option CString) : Steps World (Except Halt Bool) :=
  World.runCommand childEnded (fun c => (c.session, c.sessionTimeout)) override stack.isSome
    (substitutions program stack) "log session"

/-- What stands between a stack trace and the session log. -/
def header : Bytes := utf8 "\n\n********** Session Log **********\n\n"

/-- Opens a file in one of the two ways. -/
def openWith (way : FileTree → Place → Bytes → Except Errno Place) (path : Bytes) :
    Steps World (Except Errno Place) :=
  Steps.look fun w => way w.machine.files w.machine.working path

/-- Writes to an open file, at its end. -/
def writeTo (out : Place) (bytes : Bytes) : Steps World (Except Errno Unit) :=
  Steps.act fun w =>
    match w.machine.files.appendAt out bytes with
    | .ok files => (.ok (), { w with machine := { w.machine with files } })
    | .error e => (.error e, w)

/-- Copies one open file to the end of another. What was read before reading failed is copied. -/
def copy (log out : Place) : Steps World (Except Errno Unit) := do
  let (front, failure) ← Steps.look (·.machine.files.contentAt log)
  (writeTo out front).andThen fun _ =>
    match failure with
    | none => return .ok ()
    | some e => return .error e

/-- Appends a session log to a stack trace. The header is written once both files are open. A log
    that is not the stack trace itself is meant; copying a file to its own end would not come to an
    end. -/
def appendLog (stackFile log : Bytes) : Steps World (Except Errno Unit) :=
  (openWith FileTree.openToAppend stackFile).andThen fun out =>
    (openWith FileTree.openToRead log).andThen fun log =>
      (writeTo out header).andThen fun _ => copy log out

/-- The part of `finish` that has to do with the session log. That it fails is not told. -/
def addLog (stackFile : CString) (log : Option Bytes) (crashingHard : Bool) : Steps World Unit :=
  match log, crashingHard with
  | some path, false => do
    let _ ← appendLog stackFile.bytes path
  | _, _ => pure ()

/-- Completes a stack trace. Unless the process is about to crash the session log is appended, if
    there is one; then the session logger is told, if fatal stack logging is on. -/
def finish (childEnded : Steps World (Except Halt Unit)) (program stackFile : CString)
    (log : Option Bytes) (crashingHard : Bool) : Steps World (Except Halt Unit) := do
  addLog stackFile log crashingHard
  if ← Steps.look (·.context.fatalStackLogging) then
    (invoke childEnded program (some stackFile)).andThen fun _ => return .ok ()
  else
    return .ok ()

end Postmortem.Session
