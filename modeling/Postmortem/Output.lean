import Postmortem.Errno

/-! # Writing

A text is produced by a sequence of writes, its *fragments*. The first half of this module sends
fragments to a sink that takes a limited number of bytes. The second half is about the system call
that writes to a descriptor and the loops around it: every call may take only a part of what it is
given, be interrupted, or fail. How the calls are answered is given in advance, as far as it is
known.
-/

namespace Postmortem

/-- A text as the sequence of writes that produce it. -/
abbrev Fragments := List Bytes

/-- What a sink took of a text, and whether it refused the rest. -/
structure Written where
  bytes : Bytes
  failed : Bool
  deriving Repr, DecidableEq

namespace Fragments

/-- Sends fragments to a sink with room for `room` bytes. The fragment that exceeds the room is
    taken in part, and nothing after it is sent. -/
def sendTo (room : Nat) : Fragments → Written
  | [] => ⟨[], false⟩
  | fragment :: rest =>
    if fragment.length ≤ room then
      let after := sendTo (room - fragment.length) rest
      ⟨fragment ++ after.bytes, after.failed⟩
    else ⟨fragment.take room, true⟩

/-- Sends fragments to a sink that may have a limit. -/
def send (limit : Option Nat) (fragments : Fragments) : Written :=
  match limit with
  | none => ⟨fragments.flatten, false⟩
  | some room => sendTo room fragments

end Fragments

/-- The wording of a sink's refusal. -/
def deviceFull : String := "device full"

/-! ## Descriptors -/

/-- How a write call ends: some bytes were taken, or it failed. A count beyond what was offered
    stands for all of it. -/
inductive WriteAnswer where
  | accepted (count : Nat)
  | failed (e : Errno)
  deriving Repr, DecidableEq

/-- How many bytes the call took. -/
def WriteAnswer.taken : WriteAnswer → Nat
  | .accepted count => count
  | .failed _ => 0

/-- One write call: the descriptor, the bytes it was offered, and the answer once there is one. -/
structure WriteCall where
  fd : Int
  offered : Bytes
  answer : Option WriteAnswer
  deriving Repr, DecidableEq

/-- What the call delivered. -/
def WriteCall.delivered (call : WriteCall) : Bytes :=
  match call.answer with
  | none => []
  | some answer => call.offered.take answer.taken

/-- What passes between a thread that writes and the system: the answers to the calls to come, the
    thread's error number, and the calls made so far. -/
structure Exchange where
  answers : List WriteAnswer
  errno : Errno
  calls : List WriteCall := []
  deriving Repr, DecidableEq

namespace Exchange

/-- What all of the calls delivered. -/
def delivered (x : Exchange) : Bytes := x.calls.flatMap WriteCall.delivered

/-- The system call. It returns how many bytes it took, or -1 and leaves the reason in the error
    number; as long as there is no answer it does not return. -/
def write (x : Exchange) (fd : Int) (offered : Bytes) : Option Int × Exchange :=
  let answer := x.answers.head?
  let x := { x with answers := x.answers.tail, calls := x.calls ++ [⟨fd, offered, answer⟩] }
  match answer with
  | none => (none, x)
  | some (.accepted count) => (some (min count offered.length : Nat), x)
  | some (.failed e) => (some (-1), { x with errno := e })

theorem length_answers_write {x : Exchange} {fd : Int} {offered : Bytes} {result : Int}
    (answered : (x.write fd offered).1 = some result) :
    (x.write fd offered).2.answers.length < x.answers.length := by
  obtain ⟨answers, errno, calls⟩ := x
  cases answers with
  | nil => cases answered
  | cons answer answers => cases answer <;> exact Nat.lt_succ_self answers.length

end Exchange

/-- Something to write to, one call after another. A call takes some of the bytes it is offered or
    fails; it may also not return, and only so many calls do. -/
structure Writer (σ : Type) where
  write : σ → Bytes → Option (Except Errno Nat) × σ
  /-- How many calls will return. -/
  returns : σ → Nat
  returns_write : ∀ {s bytes result}, (write s bytes).1 = some result →
    returns (write s bytes).2 < returns s

/-- How writing a whole string ends. `pending` means that the last call has not returned. -/
inductive WriteOutcome where
  | complete
  | nothingAccepted
  | failed (e : Errno)
  | pending
  deriving Repr, DecidableEq

/-- Writes a string in the way that every writer can: it calls again for what was not taken, and
    after an interruption. -/
def Writer.writeAll {σ : Type} (writer : Writer σ) (s : σ) (bytes : Bytes) : WriteOutcome × σ :=
  if bytes = [] then (.complete, s)
  else
    match _returned : writer.write s bytes with
    | (none, s) => (.pending, s)
    | (some (.ok count), s) =>
      if count = 0 then (.nothingAccepted, s) else writer.writeAll s (bytes.drop count)
    | (some (.error e), s) =>
      if e = .interrupted then writer.writeAll s bytes else (.failed e, s)
termination_by writer.returns s
decreasing_by
  all_goals
    have less := writer.returns_write (congrArg Prod.fst _returned)
    rwa [_returned] at less

/-- A writer on the descriptor with this number. -/
structure FdWriter where
  fd : Int
  deriving Repr, DecidableEq

namespace FdWriter

/-- The writer on the error stream. -/
def stderr : FdWriter := ⟨2⟩

/-- One write call, with the error number as its failure. -/
def write (w : FdWriter) (x : Exchange) (bytes : Bytes) : Option (Except Errno Nat) × Exchange :=
  match x.write w.fd bytes with
  | (none, x) => (none, x)
  | (some result, x) => (some (if result < 0 then .error x.errno else .ok result.toNat), x)

theorem length_answers_write {w : FdWriter} {x : Exchange} {bytes : Bytes}
    {result : Except Errno Nat} (returned : (w.write x bytes).1 = some result) :
    (w.write x bytes).2.answers.length < x.answers.length := by
  rw [write] at returned ⊢
  split at returned
  · cases returned
  · next called =>
    have less := Exchange.length_answers_write (congrArg Prod.fst called)
    rwa [called] at less

/-- What a descriptor is as a writer. -/
def writer (w : FdWriter) : Writer Exchange where
  write := w.write
  returns x := x.answers.length
  returns_write := length_answers_write

/-- Writes a string to the descriptor, calling again for what was not taken and after an
    interruption. -/
def writeAll (w : FdWriter) (x : Exchange) (bytes : Bytes) : WriteOutcome × Exchange :=
  if bytes = [] then (.complete, x)
  else
    match _returned : w.write x bytes with
    | (none, x) => (.pending, x)
    | (some (.ok count), x) =>
      if count = 0 then (.nothingAccepted, x) else w.writeAll x (bytes.drop count)
    | (some (.error e), x) => if e = .interrupted then w.writeAll x bytes else (.failed e, x)
termination_by x.answers.length
decreasing_by
  all_goals
    have less := length_answers_write (congrArg Prod.fst _returned)
    rwa [_returned] at less

/-- Writes as much as possible and puts the error number back, however it ends. Until the last call
    returns there is no result. -/
def writeQuietly (w : FdWriter) (x : Exchange) (bytes : Bytes) : Option Unit × Exchange :=
  let saved := x.errno
  match w.writeAll x bytes with
  | (.pending, x) => (none, x)
  | (_, x) => (some (), { x with errno := saved })

end FdWriter

/-- What a descriptor is connected to. -/
inductive Channel where
  /-- A file, which takes everything at once. -/
  | file (content : Bytes)
  /-- Nothing. -/
  | unopened
  /-- A pipe that nobody reads from. -/
  | abandonedPipe
  /-- The reading end of a pipe. -/
  | readingEnd
  deriving Repr, DecidableEq

namespace Channel

/-- The answer to one write call. An abandoned pipe only notices when there is something to send. -/
def answer : Channel → Bytes → WriteAnswer
  | .file _, bytes => .accepted bytes.length
  | .unopened, _ => .failed .badDescriptor
  | .abandonedPipe, bytes => if bytes.isEmpty then .accepted 0 else .failed .brokenPipe
  | .readingEnd, _ => .failed .badDescriptor

/-- The channel after these bytes were delivered. -/
def deliver : Channel → Bytes → Channel
  | .file content, bytes => .file (content ++ bytes)
  | channel, _ => channel

/-- What was written to the channel, if it is a file. -/
def content : Channel → Bytes
  | .file content => content
  | _ => []

/-- One write call. -/
def write (channel : Channel) (bytes : Bytes) : Channel × WriteAnswer :=
  match channel.answer bytes with
  | .accepted count => (channel.deliver (bytes.take count), .accepted count)
  | .failed e => (channel, .failed e)

/-- How the channel will answer when these bytes are written. One answer is enough: these channels
    take all or nothing and are never interrupted. -/
def exchange (channel : Channel) (errno : Errno) (bytes : Bytes) : Exchange :=
  { answers := [channel.answer bytes], errno }

/-- Writes the whole string; the error number is that of the failure, if there is one. -/
def sendAll (channel : Channel) (errno : Errno) (bytes : Bytes) :
    Channel × Errno × WriteOutcome :=
  let (outcome, x) := FdWriter.stderr.writer.writeAll (channel.exchange errno bytes) bytes
  (channel.deliver x.delivered, x.errno, outcome)

/-- Writes as much as possible and puts the error number back, whatever happened. -/
def sendQuietly (channel : Channel) (errno : Errno) (bytes : Bytes) : Channel × Errno :=
  let (_, x) := FdWriter.stderr.writeQuietly (channel.exchange errno bytes) bytes
  (channel.deliver x.delivered, x.errno)

end Channel

end Postmortem
