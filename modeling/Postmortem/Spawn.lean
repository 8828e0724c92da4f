import Postmortem.Argv
import Postmortem.Buffer
import Postmortem.Machine
import Postmortem.Watch

/-! # Starting a program

A report starts other programs, waits for each with a hard timeout, and says on the error stream
what went wrong with it. However that ends, the program has been waited for, no alarm is pending,
and the process provides for the alarm signal as it did before.
-/

namespace Postmortem

/-- Which side of a fork the process is on. -/
inductive Forked where
  | child
  | parent (pid : Int)
  deriving Repr, DecidableEq

/-- The largest process id. -/
def maxPid : Int := Int32.maxValue.toInt

/-- What the answer of a fork means: 0 in the child, the child's process id in the parent, and
    otherwise a failure for the reason given by the error number. -/
def Forked.ofAnswer (answer : Int) (errno : Int) : Except Errno Forked :=
  if answer = 0 then .ok .child
  else if 0 < answer then .ok (.parent (min answer maxPid))
  else .error (.ofNumber errno)

/-- What can go wrong with a program. -/
inductive SpawnError where
  | forkFailed (e : Errno)
  | execFailed
  | signaled (signal : Int)
  | waitFailed (e : Errno)
  | timedOut
  deriving Repr, DecidableEq

namespace SpawnError

/-- The wording of the failure. -/
def message : SpawnError → String
  | .forkFailed e => "Unable to fork() crash handler: errno=" ++ toString e.number
  | .execFailed => "Crash handler failed to exec"
  | .signaled signal => "Crash handler died: signal=" ++ toString signal
  | .waitFailed e => "Crash handler wait failed: errno=" ++ toString e.number
  | .timedOut => "Crash handler timed out"

/-- The error number for the failure. A program that cannot be executed counts as not found,
    whatever the reason. -/
def errno : SpawnError → Errno
  | .forkFailed e => e
  | .waitFailed e => e
  | .execFailed => .notFound
  | .signaled _ => .interrupted
  | .timedOut => .busy

/-- The line on the error stream. It is put together in a buffer; of a text that does not fit, the
    beginning is shown. -/
def report (e : SpawnError) : Bytes :=
  ((FixedBuffer.empty 128).write [utf8 "FAIL: ", utf8 e.message]).1.content ++ [Bytes.newline]

end SpawnError

/-- The status with which a child ends whose program cannot be executed. -/
def execFailedStatus : Nat := 127

/-- Why a call does not return. -/
inductive Halt where
  /-- The thread waits for a program that never ends. -/
  | waiting
  /-- The process has ended. -/
  | ended
  /-- The thread has panicked, and gives back what it had taken. -/
  | panicked
  deriving Repr, DecidableEq

/-- What came of a program: its exit status or the failure, unless the call does not return; and how
    often a second was counted meanwhile. -/
structure Spawned where
  result : Except Halt (Except SpawnError Nat)
  ticks : Nat
  deriving Repr

namespace Spawned

/-- What an ending means. -/
def ofEnding : Ending → Except SpawnError Nat
  | .exited status => if status = execFailedStatus then .error .execFailed else .ok status
  | .killed signal => .error (.signaled signal)

/-- What a verdict means. If the process ignores the ends of its children, it cannot wait for one
    that has ended. -/
def ofVerdict (childrenIgnored : Bool) : Verdict → Except SpawnError Nat
  | .ended ending => if childrenIgnored then .error (.waitFailed .noChild) else ofEnding ending
  | .timedOut => .error .timedOut

/-- Was there a child, and has it ended? -/
def childEnded (s : Spawned) : Bool :=
  match s.result with
  | .error _ => false
  | .ok (.error (.forkFailed _)) => false
  | .ok _ => true

/-- What came of a wait. -/
def ofWatch (childrenIgnored : Bool) (w : Watch) : Spawned :=
  match w.watcher with
  | .finished verdict => ⟨.ok (ofVerdict childrenIgnored verdict), w.ticks⟩
  | .panicked => ⟨.error .panicked, w.ticks⟩
  | _ => ⟨.error .waiting, w.ticks⟩

end Spawned

namespace Machine

/-- The signal of an alarm. -/
def alarmSignal : Nat := 14

/-- The signal that tells of the end of a child. -/
def childSignal : Nat := 17

/-- What the child writes if its program cannot be executed. -/
def execFailure (path : CString) (e : Errno) : Bytes :=
  utf8 "FAIL: Unable to exec crash handler " ++ path.bytes ++ utf8 ": errno="
    ++ (numberText e.number).bytes ++ [Bytes.newline]

/-- The child's part: it becomes the program, or says why it cannot. The result is how long the
    child runs and how it ends. -/
def becomeProgram (m : Machine) (path : CString) (argv : Argv) :
    (Option Nat × Ending) × Machine :=
  let arguments := argv.toList
  let found := m.findProgram path arguments
  let m := { m with launches := m.launches ++ [Launch.mk path arguments found] }
  match found with
  | .ok p => ((p.lifetime, p.ending), m.perform p path arguments)
  | .error e => ((some 0, .exited execFailedStatus), m.say (execFailure path e))

/-- What comes of the wait for a program that has just been started, and whether the program is
    left without having been waited for. The seconds are counted up only now, so that the program
    is there already if they do not fit. -/
def wait (childrenIgnored : Bool) (timeout : Option Duration) (lifetime : Option Nat)
    (ending : Ending) : Spawned × Bool :=
  match Duration.budget timeout with
  | .error _ => (⟨.error .panicked, 0⟩, true)
  | .ok budget =>
    let w := Watch.run budget lifetime ending
    (Spawned.ofWatch childrenIgnored w, w.unreaped)

/-- Starts a program and waits for it. It is taken for granted that the handler of the alarm can be
    installed; if it could not, the program would be killed at once and the call would fail. All of
    this is one step: signals that come during the wait, however long, come after it here. -/
def spawnAndWait (m : Machine) (path : CString) (argv : Argv) (timeout : Option Duration) :
    Spawned × Machine :=
  match m.forkFailure with
  | some e => (⟨.ok (.error (.forkFailed e)), 0⟩, m)
  | none =>
    let ((lifetime, ending), m) := m.becomeProgram path argv
    let before := m.disposition alarmSignal
    let m := m.setDisposition alarmSignal .wakeUp
    let (spawned, unreaped) := wait (m.disposition childSignal = .ignored) timeout lifetime ending
    let m := { m with alarm := false, children := m.children + if unreaped then 1 else 0 }
    (spawned, m.setDisposition alarmSignal before)

/-- Reports the failure of a program on the error stream and in the error number. -/
def reportFailure (m : Machine) (spawned : Spawned) : Machine :=
  match spawned.result with
  | .ok (.error e) => { m.say e.report with errno := e.errno }
  | _ => m

/-- Starts a program, waits for it, and reports a failure. -/
def spawn (m : Machine) (path : CString) (argv : Argv) (timeout : Option Duration) :
    Spawned × Machine :=
  let (spawned, m) := m.spawnAndWait path argv timeout
  (spawned, m.reportFailure spawned)

end Machine

end Postmortem
