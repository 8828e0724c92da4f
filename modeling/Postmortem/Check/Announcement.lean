import Postmortem.Banner
import Postmortem.Bytes.Utf8
import Postmortem.Text.Quoted

/-! # Checking announcements

The error stream of a process shows an announcement for every report: a header, the line that names
the log file, the end of the work on it, and a footer. This module reads such a stream line by line
and checks that every announcement is complete before the next one begins. All other lines, in and
between announcements, are passed over.
-/

namespace Postmortem.Check

/-- What a line of the stream is to an announcement. -/
inductive Line where
  | header
  /-- The line that names the log file; `finished` if the work on it ended without other output. A
      line without a host names no file. -/
  | log (name : Option Bytes) (finished : Bool)
  | done
  | footer
  | other
  deriving Repr, DecidableEq

namespace Line

/-- How the line begins that names the log file. -/
def logMark : Bytes := utf8 "writing crash report to [ "

/-- What ends the name of the log file. -/
def nameEnd : Bytes := utf8 " ]"

/-- What is written when the work on a log file ends. -/
def doneMark : Bytes := utf8 " done."

/-- What the header of a program's announcement contains. -/
def headerLabel (program : Bytes) : Bytes := utf8 " " ++ program ++ Banner.verdict ++ utf8 " "

/-- The log file after the first colon of a target, before which the host is. -/
def logName? (target : Bytes) : Option Bytes := (Bytes.splitOnce 58 target).map (·.2)

/-- Does a line consist of dashes, and of enough of them? -/
def isFooter (line : Bytes) : Bool := Banner.minWidth ≤ line.length && line.all (· = Bytes.dash)

/-- What a line is, by the first of the tests that it passes. -/
def classify (program line : Bytes) : Line :=
  if line.head? = some Bytes.dash && Bytes.occursIn (headerLabel program) line then .header
  else
    match logMark.isPrefixOf? line with
    | some rest => .log (logName? (Bytes.upTo nameEnd rest)) (Bytes.endsWith line doneMark)
    | none =>
      if line = doneMark then .done
      else if isFooter line then .footer
      else .other

end Line

/-- How far an announcement has got. -/
inductive Progress where
  | idle
  | headed
  | writing
  | finished
  deriving Repr, DecidableEq

/-- What is wrong with a stream. -/
inductive StreamFault where
  | headerInside
  | misplacedLog
  | noHost (line : Bytes)
  | misplacedDone
  | misplacedFooter
  | unterminated
  deriving Repr, DecidableEq

/-- The wording of a fault of a stream. -/
def StreamFault.message (stream : Bytes) : StreamFault → Bytes
  | .headerInside => utf8 "Header inside a report: " ++ stream
  | .misplacedLog => utf8 "Misplaced log line: " ++ stream
  | .noHost line => utf8 "no host in " ++ utf8Chars (Text.quotedChars (Utf8.decodeLossy line))
  | .misplacedDone => utf8 "Misplaced done: " ++ stream
  | .misplacedFooter => utf8 "Misplaced footer: " ++ stream
  | .unterminated => utf8 "Unterminated report: " ++ stream

/-- The next line: how far the announcement has got, and the log files that the line names. -/
def advance (progress : Progress) (line : Bytes) : Line → Except StreamFault (Progress × List Bytes)
  | .header => if progress = .idle then .ok (.headed, []) else .error .headerInside
  | .log name finished =>
    if progress = .headed then
      match name with
      | some log => .ok (if finished then .finished else .writing, [log])
      | none => .error (.noHost line)
    else .error .misplacedLog
  | .done => if progress = .writing then .ok (.finished, []) else .error .misplacedDone
  | .footer => if progress = .finished then .ok (.idle, []) else .error .misplacedFooter
  | .other => .ok (progress, [])

/-- Goes through lines and collects the log files that they name. -/
def readLines (program : Bytes) (progress : Progress) : List Bytes → Except StreamFault (List Bytes)
  | [] => if progress = .idle then .ok [] else .error .unterminated
  | line :: rest => do
    let (progress, logs) ← advance progress line (Line.classify program line)
    return logs ++ (← readLines program progress rest)

/-- Checks the announcements of a program on its error stream; the result is the log file of each of
    them. -/
def announcements (stream program : Bytes) : Except StreamFault (List Bytes) :=
  readLines program .idle (Bytes.lines stream)

end Postmortem.Check
