import Postmortem.Bytes

/-! # Who traces this process

The status file of a process has a line `TracerPid:` with the process that traces it, 0 if there is
none. The file is read piecemeal into a buffer of fixed size, and a line is only looked at once it
is there as a whole; a line that fills the buffer is dropped, with everything up to its end.
-/

namespace Postmortem.Tracer

/-- The size of the read buffer. -/
def bufferSize : Nat := 1024

/-- The largest number a process id is taken for. -/
def maxPid : Nat := UInt64.size / 2 - 1

/-- How the line begins. -/
def marker : Bytes := utf8 "TracerPid:"

/-- Adds a digit to a number, both the shift and the sum stopping at the largest number. -/
def addDigit (n : Nat) (b : UInt8) : Nat :=
  min maxPid (min maxPid (n * 10) + (b.toNat - 48))

/-- The number in a line of the status file, if it is the one sought: the marker, white space,
    digits, white space. -/
def parseLine (line : Bytes) : Option Nat :=
  match marker.isPrefixOf? line with
  | none => none
  | some rest =>
    let digits := Bytes.trim rest
    if digits.isEmpty then none
    else if digits.all Bytes.isDigit then some (digits.foldl addDigit 0)
    else none

/-- Why a read failed. -/
inductive ReadError where
  | interrupted
  | permissionDenied
  deriving Repr, DecidableEq

/-- What a file yields, read by read; nothing is left at the end. -/
abbrev Deliveries (ε : Type) := List (Except ε Bytes)

/-- What the status file yields. -/
abbrev Source := Deliveries ReadError

variable {ε : Type}

namespace Deliveries

/-- A read of at most `room` bytes. A longer delivery is handed out in parts, and after the last
    one every read yields nothing. -/
def read (room : Nat) : Deliveries ε → Except ε Bytes × Deliveries ε
  | [] => (.ok [], [])
  | .error e :: rest => (.error e, rest)
  | .ok bytes :: rest =>
    if bytes.length ≤ room then (.ok bytes, rest)
    else (.ok (bytes.take room), .ok (bytes.drop room) :: rest)

/-- How much a source still has: its bytes and its deliveries. -/
def weight : Deliveries ε → Nat
  | [] => 0
  | .error _ :: rest => weight rest + 1
  | .ok bytes :: rest => weight rest + bytes.length + 1

/-- A read that yields something leaves less. -/
theorem weight_read {room : Nat} {source : Deliveries ε} {bytes : Bytes}
    (h : (source.read room).1 = .ok bytes) (ne : bytes ≠ []) :
    (source.read room).2.weight < source.weight := by
  match source with
  | [] => simp_all [read]
  | .error e :: rest => simp [read] at h
  | .ok all :: rest =>
    simp only [read] at h ⊢
    split at h
    · next fits =>
      simp only [if_pos fits, weight]
      omega
    · next fits =>
      simp only [if_neg fits, weight, List.length_drop]
      have : 0 < room := by
        rcases Nat.eq_zero_or_pos room with rfl | pos
        · simp_all
        · exact pos
      omega

end Deliveries

/-- What the lines in the buffer say. Ended lines are looked at in order, except that the first is
    passed over while `discarding`; the last piece is not ended and is kept. -/
structure Scan where
  found : Option Nat
  discarding : Bool
  kept : Bytes
  deriving Repr, DecidableEq

/-- Looks at the lines of the buffered bytes. -/
def scan (discarding : Bool) (buffered : Bytes) : Scan :=
  let pieces := Bytes.pieces Bytes.newline buffered
  let ended := pieces.dropLast
  let considered := if discarding then ended.drop 1 else ended
  { found := considered.findSome? parseLine
    discarding := discarding && ended.isEmpty
    kept := pieces.getLast?.getD [] }

/-- Reads on, with `kept` in the buffer. -/
def readFrom (kept : Bytes) (discarding : Bool) (source : Deliveries ε) :
    Except ε (Option Nat) :=
  match _h : (source.read (bufferSize - kept.length)).1 with
  | .error e => .error e
  | .ok bytes =>
    let lines := scan discarding (kept ++ bytes)
    match lines.found with
    | some pid => .ok (some pid)
    | none =>
      if _ne : bytes = [] then
        .ok (if lines.discarding then none else parseLine lines.kept)
      else if lines.kept.length = bufferSize then
        readFrom [] true (source.read (bufferSize - kept.length)).2
      else
        readFrom lines.kept lines.discarding (source.read (bufferSize - kept.length)).2
termination_by source.weight
decreasing_by
  all_goals exact Deliveries.weight_read _h _ne

/-- The tracer named by a status file: the number on the first line that has one, or none. -/
def pid (source : Deliveries ε) : Except ε (Option Nat) := readFrom [] false source

end Postmortem.Tracer
