/-! # Durations

A duration is a count of seconds and a rest in nanoseconds. Timeouts are counted in whole seconds.
-/

namespace Postmortem

/-- Nanoseconds in a second. -/
def nanosPerSecond : Nat := 1000000000

/-- A duration; `nanos` is less than a second. -/
structure Duration where
  seconds : UInt64
  nanos : Nat
  nanos_lt : nanos < nanosPerSecond
  deriving Repr, DecidableEq

/-- A sum does not fit into the 64 bits that it is kept in. -/
structure Overflow where
  deriving Repr, DecidableEq

/-- The wording of the panic. -/
def Overflow.message : String := "attempt to add with overflow"

namespace Duration

/-- A number of whole seconds. -/
def ofSeconds (n : UInt64) : Duration := ⟨n, 0, by decide⟩

/-- The duration of some seconds and any number of nanoseconds, of which whole seconds are carried;
    none if the seconds do not fit. -/
def ofParts? (seconds : UInt64) (nanos : Nat) : Option Duration :=
  let total := seconds.toNat + nanos / nanosPerSecond
  if total < UInt64.size then
    some ⟨.ofNat total, nanos % nanosPerSecond, Nat.mod_lt _ (by decide)⟩
  else none

/-- Is it no time at all? -/
def isZero (d : Duration) : Bool := d.seconds = 0 && d.nanos = 0

/-- The seconds, a broken one counting as a whole. The sum is checked. -/
def wholeSeconds (d : Duration) : Except Overflow UInt64 :=
  let broken : UInt64 := if 0 < d.nanos then 1 else 0
  if d.seconds.toNat + broken.toNat < UInt64.size then .ok (d.seconds + broken) else .error ⟨⟩

/-- The number of seconds that a timeout allows; no timeout and no time at all both mean that
    waiting never ends. -/
def budget (timeout : Option Duration) : Except Overflow (Option UInt64) :=
  match timeout with
  | none => .ok none
  | some d => if d.isZero then .ok none else d.wholeSeconds.map some

end Duration

end Postmortem
