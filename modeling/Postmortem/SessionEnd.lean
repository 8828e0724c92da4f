import Postmortem.Handler

/-! # The end of a session

In ordinary operation the session logger is told about sessions, last at the end of the process.
-/

namespace Postmortem.Session

/-- Tells the session logger about a session, and about the stack trace if there is one. -/
def logInfo (me : ThreadId) (stack : Option CString) : Steps World (Except Halt Unit) := do
  if ← Steps.look (·.context.fatalStackLogging) then
    let names ← Steps.look (·.context.reportNames)
    (invoke (Handler.childEnded me) names.programName stack).andThen fun _ => return .ok ()
  else
    return .ok ()

/-- The end of the process in good order: the session logger is told, if that was arranged. -/
def atExit (me : ThreadId) : Steps World (Except Halt Unit) := do
  if ← Steps.look (·.context.loggedAtExit) then logInfo me none else return .ok ()

end Postmortem.Session
