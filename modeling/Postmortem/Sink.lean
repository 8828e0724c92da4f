import Postmortem.Output

/-! # Sinks

A text is written by one call after another. A sink takes of each call as many bytes as it likes,
but one at least, until its room is used up; then it fails. A computation that writes ends with the
first failure.
-/

namespace Postmortem

/-- Why writing to a sink fails: it has no room left, or it took nothing. -/
inductive SinkError where
  | full
  | nothingTaken
  deriving Repr, DecidableEq

/-- Something that takes bytes: those that it has `taken`, the `room` for more, if that is limited,
    and how many of the bytes it is `offered` it would take at once. -/
structure Sink where
  taken : Bytes
  room : Option Nat
  appetite : (taken offered : Bytes) → Nat

namespace Sink

/-- A sink that has taken nothing and takes all it has room for. -/
def limited (room : Option Nat) : Sink := ⟨[], room, fun _ offered => offered.length⟩

/-- How many of the bytes it is offered the sink would take at once: one at least. -/
def portion (sink : Sink) (offered : Bytes) : Nat :=
  min offered.length (max 1 (sink.appetite sink.taken offered))

/-- The sink after it has taken some bytes. -/
def take (sink : Sink) (bytes : Bytes) : Sink :=
  { sink with taken := sink.taken ++ bytes, room := sink.room.map (· - bytes.length) }

/-- One call: the number of bytes taken from the front of those offered. -/
def call (sink : Sink) (offered : Bytes) : Except SinkError Nat × Sink :=
  if sink.room = some 0 then (.error .full, sink)
  else
    let count := min (sink.portion offered) (sink.room.getD offered.length)
    (.ok count, sink.take (offered.take count))

end Sink

/-- A computation that writes to a sink. -/
abbrev Writing (α : Type) := ExceptT SinkError (StateM Sink) α

namespace Writing

/-- Writes all of the bytes, with another call for those that were not taken. -/
def put (bytes : Bytes) : Writing Unit :=
  if _some : bytes ≠ [] then do
    let count ← ExceptT.mk fun sink => sink.call bytes
    if _progress : count = 0 then throw .nothingTaken
    else put (bytes.drop count)
  else pure ()
termination_by bytes.length
decreasing_by
  have : 0 < bytes.length := List.length_pos_iff.mpr _some
  rw [List.length_drop]
  omega

/-- What is in a sink afterwards, and whether writing failed. -/
def into (w : Writing Unit) (sink : Sink) : Written :=
  match w.run.run sink with
  | (.ok (), after) => ⟨after.taken, false⟩
  | (.error _, after) => ⟨after.taken, true⟩

end Writing

end Postmortem
