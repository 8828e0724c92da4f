import Postmortem.Buffer
import Postmortem.Machine
import Postmortem.Steps

/-! # Log files

Every report has a log file of its own, which is created under a name that nothing had before. The
name is made of the directory, the beginning of log names, the program and the process id; if it is
taken, a running number is added, and the first free one counts. The name is put together in a
buffer of fixed size, which limits how far the search can go.
-/

namespace Postmortem

/-- Why there is no log file. -/
inductive LogFileError where
  /-- The name does not fit its buffer. -/
  | outOfSpace
  | create (e : Errno)
  deriving Repr, DecidableEq

/-- The wording of the failure. -/
def LogFileError.message : LogFileError → String
  | .outOfSpace => "log file name does not fit"
  | .create e => "unable to create log file: errno=" ++ toString e.number

/-- The error number for the failure. -/
def LogFileError.errno : LogFileError → Errno
  | .outOfSpace => .outOfMemory
  | .create e => e

namespace LogFile

/-- The size of the buffer for a name, the NUL included. -/
def nameCapacity : Nat := 1024

/-- A name under construction. -/
abbrev Name := FixedBuffer nameCapacity

/-- The name without a running number. -/
def plainName (dir stem program : CString) (pid : Int) : Except PushError Name := do
  let name ← (FixedBuffer.empty nameCapacity).push dir.bytes
  let name ← name.push (utf8 "/")
  let name ← name.push stem.bytes
  let name ← name.push (utf8 "_")
  let name ← name.push program.bytes
  let name ← name.push (utf8 ".")
  name.pushNumber pid

/-- The name cut to `size` bytes and continued by a running number. -/
def numbered (name : Name) (size number : Nat) : Except PushError Name := do
  let name ← (name.truncate size).push (utf8 ".")
  name.pushNumber number

/-- A number that was pushed is bounded by the size of the buffer. -/
theorem lt_of_numbered {name result : Name} {size number : Nat}
    (h : numbered name size number = .ok result) : number < Decimal.tenTo nameCapacity := by
  unfold numbered at h
  cases pushed : (name.truncate size).push (utf8 ".") with
  | error e => simp [pushed, bind, Except.bind] at h
  | ok dotted =>
    simp only [pushed, bind, Except.bind, FixedBuffer.pushNumber] at h
    split at h
    · simp at h
    · next fits =>
      have width : Decimal.width (number : Int) = Decimal.digitCount number := by
        simp [Decimal.width]
      have room : dotted.remaining ≤ nameCapacity := Nat.sub_le ..
      calc
        number < Decimal.tenTo (Decimal.digitCount number) := Decimal.lt_tenTo_digitCount number
        _ ≤ Decimal.tenTo nameCapacity := Decimal.tenTo_le_tenTo (by omega)

/-- One attempt to create a file. -/
def attempt (path : CString) (m : Machine) : Except Errno Unit × Machine :=
  match m.files.createExclusive m.working path.bytes with
  | .ok files => (.ok (), { m with files })
  | .error e => (.error e, { m with errno := e })

/-- Tries names until one is free, `number` being the running number of the present one. Each
    attempt is a step of its own. -/
def search (size number : Nat) (name : Name) : Steps Machine (Except LogFileError CString) :=
  .step (fun m => (attempt name.asCString m).2) fun m =>
    match (attempt name.asCString m).1 with
    | .ok () => .done (.ok name.asCString)
    | .error e =>
      if e = .alreadyExists then
        match _h : numbered name size (number + 1) with
        | .ok next => search size (number + 1) next
        | .error _ => .done (.error .outOfSpace)
      else .done (.error (.create e))
termination_by Decimal.tenTo nameCapacity - number
decreasing_by
  have := lt_of_numbered _h
  omega

/-- Creates the log file of a report and tells its name. -/
def create (dir stem program : CString) (pid : Int) :
    Steps Machine (Except LogFileError CString) :=
  match plainName dir stem program pid with
  | .ok name => search name.size 0 name
  | .error _ => .done (.error .outOfSpace)

end LogFile

end Postmortem
