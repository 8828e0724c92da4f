import Postmortem.Context
import Postmortem.Steps

/-! # A process and its surroundings

The state that reports work on: the machine, the context, the lines that others provide, and what
the process has replaced by its crash handlers.
-/

namespace Postmortem

/-- The crash handlers of a process: whether they were registered, and what each signal had before
    its handler was installed. -/
structure CrashHandlers where
  registered : Bool
  previous : List (Nat × Disposition)
  deriving Repr, DecidableEq

/-- No crash handlers. -/
def CrashHandlers.none : CrashHandlers := ⟨false, []⟩

/-- What a signal had before its crash handler was installed. -/
def CrashHandlers.previous? (h : CrashHandlers) (signal : Nat) : Option Disposition :=
  h.previous.lookup signal

/-- The state of a process. -/
structure World where
  machine : Machine
  context : Context
  lines : LineStore
  handlers : CrashHandlers

namespace World

/-- A program at its start. -/
def start (m : Machine) : World := ⟨m, .initial, .empty, .none⟩

/-- A computation on the machine. -/
def onMachine {α : Type} (c : Steps Machine α) : Steps World α :=
  c.within World.machine fun w machine => { w with machine }

/-- Does a debugger get the process instead of a report? -/
def trapped (w : World) : Bool := w.context.trapOnDebugger && w.machine.debugged

/-- A step of the machine. -/
def machineStep (f : Machine → Machine) : Steps World Unit :=
  Steps.change fun w => { w with machine := f w.machine }

/-- Writes to the error stream, one fragment a step. -/
def say : Fragments → Steps World Unit
  | [] => pure ()
  | fragment :: rest => do
    machineStep (·.say fragment)
    say rest

/-- Appends to a file, one fragment a step. -/
def append (path : Bytes) : Fragments → Steps World Unit
  | [] => pure ()
  | fragment :: rest => do
    machineStep (·.appendTo path fragment)
    append path rest

/-- Starts one of the configured commands and waits for it, unless the commands are being changed.
    The result is what came of the program, if one was started. -/
def startCommand (select : Commands → CommandTemplate × Duration) (override : CString)
    (fatal : Bool) (table : World → Substitutions) (what : String) : Steps World (Option Spawned) :=
  Steps.act fun w =>
    match w.context.commands.tryRead with
    | none => (none, w)
    | some commands =>
      let (template, timeout) := select commands
      let (spawned, machine) := template.start override fatal (table w) timeout what w.machine
      (spawned, { w with machine })

/-- What follows the wait for a program, if there was one and the wait has come to its end. The end
    of the program comes to the calling thread as a signal, `childEnded` being what it does there,
    before a failure is reported. -/
def afterWait (childEnded : Steps World (Except Halt Unit)) :
    Option Spawned → Steps World (Except Halt Bool)
  | none => return .ok false
  | some spawned =>
    match spawned.result with
    | .error halt => return .error halt
    | .ok _ =>
      (if spawned.childEnded then childEnded else return .ok ()).andThen fun _ => do
        machineStep (·.reportFailure spawned)
        return .ok true

/-- Runs one of the configured commands; true if a program was started, whatever became of it. -/
def runCommand (childEnded : Steps World (Except Halt Unit))
    (select : Commands → CommandTemplate × Duration) (override : CString) (fatal : Bool)
    (table : World → Substitutions) (what : String) : Steps World (Except Halt Bool) := do
  afterWait childEnded (← startCommand select override fatal table what)

/-- The process id stands for this token in the arguments of a command. -/
def pidEntry (w : World) : CString × CString := (.text "$pid", numberText w.machine.pid)

/-- The time used stands for this token in the arguments of a command. -/
def timeEntry (w : World) : CString × CString :=
  (.text "$time", numberText (w.context.elapsed w.machine))

end World

end Postmortem
