import Postmortem.Signal

/-! # Modes of a rehearsal

A rehearsal is a program that configures reports and then fails on purpose. Its mode says in which
way, and what it should leave behind.
-/

namespace Postmortem.Rehearsal

/-- What the program does once reports are configured. -/
inductive Mode where
  /-- Registers crash handlers and reads from address 0. -/
  | segfault
  /-- Makes one fatal report. -/
  | fatal
  /-- Makes fatal reports from two threads at once. -/
  | concurrentFatal
  /-- Makes a report and goes on. -/
  | nonfatal
  /-- Makes a fatal report with a postmortem command that never ends. -/
  | postmortemTimeout
  /-- Logs the stack of the running thread. -/
  | logStack
  deriving Repr, DecidableEq

namespace Mode

/-- All modes. -/
def all : List Mode := [.segfault, .fatal, .concurrentFatal, .nonfatal, .postmortemTimeout, .logStack]

/-- The name on the command line. -/
def name : Mode → String
  | .segfault => "segfault"
  | .fatal => "fatal"
  | .concurrentFatal => "concurrent_fatal"
  | .nonfatal => "nonfatal"
  | .postmortemTimeout => "postmortem_timeout"
  | .logStack => "log_stack"

/-- The name in the words of a log. -/
def label : Mode → String
  | .segfault => "Segfault"
  | .fatal => "Fatal"
  | .concurrentFatal => "ConcurrentFatal"
  | .nonfatal => "NonFatal"
  | .postmortemTimeout => "PostmortemTimeout"
  | .logStack => "LogStack"

/-- The mode of this name. -/
def ofName? (name : Bytes) : Option Mode := all.find? fun mode => utf8 mode.name = name

/-- The complaint about a name that no mode has. -/
def unknown (name : Bytes) : Bytes := utf8 "Unknown test mode: " ++ name

/-- How many reports a run leaves behind. -/
def expectedReports : Mode → Nat
  | .concurrentFatal => 2
  | .logStack => 0
  | _ => 1

/-- Should the postmortem command have appended to each report? -/
def expectsPostmortem : Mode → Bool
  | .postmortemTimeout => false
  | .logStack => false
  | _ => true

/-- The signal that the program should die of, if any. -/
def expectedSignal : Mode → Option Signal
  | .segfault => some .segmentation
  | _ => none

end Mode

end Postmortem.Rehearsal
