import Postmortem.Environment
import Postmortem.FileTree
import Postmortem.Signal
import Postmortem.Tracer
import Postmortem.Unwinder

/-! # The machine

What the operating system knows about the process and what the process can find out from it: files,
environment, clock and host, the error stream, the programs started so far, and what becomes of a
signal. Everything that a report does to the outside is a function on this record.
-/

namespace Postmortem

/-- What a process has provided for a signal. -/
inductive Disposition where
  /-- Nothing; the default action is taken. -/
  | standard
  | ignored
  /-- A handler that is given the number of the signal. -/
  | handler
  /-- A handler that is also given the circumstances of the signal. -/
  | infoHandler
  /-- The handler that reports a crash. -/
  | crashReport
  /-- The handler that does nothing but interrupt a wait. -/
  | wakeUp
  deriving Repr, DecidableEq

/-- What a handler may be given besides the number of its signal: where the system says what
    happened, and where it keeps what was interrupted. -/
structure Circumstances where
  info : Address
  interrupted : Address
  deriving Repr, DecidableEq

/-- A call of a handler that the process had provided, with its arguments. -/
structure HandlerCall where
  signal : Nat
  circumstances : Option Circumstances
  deriving Repr, DecidableEq

/-- What became of the process. -/
inductive Fate where
  | running
  | suspended
  | ended (ending : Ending)
  deriving Repr, DecidableEq

/-- An attempt to start a program, and what was found under the path. -/
structure Launch where
  path : CString
  arguments : List CString
  found : Except Errno Program
  deriving Repr

/-- The process and its surroundings. -/
structure Machine where
  files : FileTree
  /-- The working directory. -/
  working : Place
  environment : Environment
  /-- What was written to the output stream. -/
  stdout : Bytes
  /-- What was written to the error stream. -/
  stderr : Bytes
  /-- Every attempt to start a program, in order. -/
  launches : List Launch
  errno : Errno
  pid : Int
  /-- The host name, if it can be found out. -/
  hostName : Option Bytes
  /-- The seconds of processor time used, if they can be found out. -/
  userSeconds : Option Int
  /-- The clock in seconds. -/
  clock : Int
  /-- Seconds since the epoch, as asked for at the start of the program. -/
  epochSeconds : Int
  /-- The path of the running program, if it can be found out. -/
  executable : Option Bytes
  /-- The tails tried for the names of temporary files, and how many have been used. -/
  tails : Nat → Bytes
  tailsUsed : Nat
  /-- Why no process can be created, if so. -/
  forkFailure : Option Errno
  dispositions : List (Nat × Disposition)
  /-- Calls of handlers that the process had provided. -/
  calls : List HandlerCall
  /-- What comes with a signal that the system sends by itself, by its number. -/
  circumstances : Nat → Circumstances
  /-- What reading the status file of the process yields. -/
  status : Tracer.Source
  /-- Is an alarm pending? -/
  alarm : Bool
  /-- How many children have not been waited for. -/
  children : Nat
  fate : Fate
  /-- The stack of the running thread. -/
  stack : Stack
  symbols : SymbolTable

namespace Machine

/-- Appends to the error stream. -/
def say (m : Machine) (bytes : Bytes) : Machine := { m with stderr := m.stderr ++ bytes }

/-- Appends to the output stream. -/
def print (m : Machine) (bytes : Bytes) : Machine := { m with stdout := m.stdout ++ bytes }

/-- The longest host name that is shown. -/
def maxHostName : Nat := 256

/-- The host name up to its first NUL, cut to the longest that is shown; empty if unknown. -/
def hostText (m : Machine) : Bytes :=
  match m.hostName with
  | none => []
  | some name => (name.take maxHostName).takeWhile (· ≠ 0)

/-- The value of an environment variable. -/
def getenv (m : Machine) (name : CString) : Option CString := m.environment.get? name

/-- The directory for temporary files: that of `TMPDIR`, or `/tmp`. -/
def tempDirectory (m : Machine) : Bytes :=
  match m.getenv (.text "TMPDIR") with
  | some dir => dir.bytes
  | none => utf8 "/tmp"

/-- The processor time used, unless it cannot be found out. -/
def usage (m : Machine) : Option Int :=
  m.userSeconds.filter (0 ≤ ·)

/-- Does another process trace this one? If that cannot be found out, none does. -/
def debugged (m : Machine) : Bool :=
  match Tracer.pid m.status with
  | .ok (some pid) => pid ≠ 0
  | .ok none => false
  | .error _ => false

/-- What is provided for a signal. -/
def disposition (m : Machine) (signal : Nat) : Disposition :=
  (m.dispositions.lookup signal).getD .standard

/-- Provides for a signal. -/
def setDisposition (m : Machine) (signal : Nat) (d : Disposition) : Machine :=
  { m with dispositions := (signal, d) :: m.dispositions.filter (·.1 ≠ signal) }

/-- The end of the process, unless it has ended before. -/
def finish (m : Machine) (ending : Ending) : Machine :=
  match m.fate with
  | .ended _ => m
  | _ => { m with fate := .ended ending }

/-- The longest argument of a program, the NUL after it included. -/
def maxArgument : Nat := 131072

/-- What is found when a path is to be executed with some arguments. A file that is not there or
    must not be executed is noticed first, then an argument that is too long, then a file that is no
    program. -/
def findProgram (m : Machine) (path : CString) (arguments : List CString) :
    Except Errno Program :=
  let oversized := arguments.any fun a => maxArgument ≤ a.bytes.length
  match m.files.execute m.working path.bytes with
  | .error e => if e = .notExecutable ∧ oversized then .error .argumentsTooLong else .error e
  | .ok p => if oversized then .error .argumentsTooLong else .ok p

/-- What a program does before it ends: it appends to files, as far as these can be written. -/
def perform (m : Machine) (p : Program) (path : CString) (arguments : List CString) : Machine :=
  let given := (arguments.drop 1).map (·.bytes)
  let files := p.appends.foldl (fun files a =>
    match given[a.target]? with
    | none => files
    | some target =>
      match files.appendOrCreate m.working target (a.render path.bytes given) with
      | .ok files => files
      | .error _ => files) m.files
  { m with files }

/-- How often a new name is tried for a temporary file. -/
def tempAttempts : Nat := 65536

/-- Creates an empty temporary file under the first free name of those that begin with `stem`. -/
def createTemp (stem : Bytes) : (attempts : Nat) → Machine → Except Errno Bytes × Machine
  | 0, m => (.error .alreadyExists, m)
  | attempts + 1, m =>
    let path := stem ++ m.tails m.tailsUsed
    let m := { m with tailsUsed := m.tailsUsed + 1 }
    match m.files.createExclusive m.working path with
    | .ok files => (.ok path, { m with files })
    | .error e => if e = .alreadyExists then createTemp stem attempts m else (.error e, m)

/-- Appends to a file, if it can be written. -/
def appendTo (m : Machine) (path bytes : Bytes) : Machine :=
  match m.files.append m.working path bytes with
  | .ok files => { m with files }
  | .error _ => m

/-- A place as an absolute path. -/
def absolute (place : Place) : Bytes :=
  if place.isEmpty then utf8 "/" else place.flatMap fun name => Bytes.slash :: name

end Machine

end Postmortem
