import Postmortem.Duration
import Postmortem.Program

/-! # Waiting with a hard timeout

The parent of a started program waits for it to end. With a timeout it arms an alarm of one second
before each wait, so that the wait is interrupted, a second is counted, and the wait begins again;
when the seconds are used up the program is killed. Without a timeout no alarm is armed.

A wait that any signal interrupts counts as a second. That the alarm is the only one is an
assumption: no other handler of the process runs while the parent waits. So without a timeout nothing
interrupts the wait and no second is ever counted.

The parent's part is a sequence of small moves; the alarm and the end of the program come in between
at any time. `run` is the course of things when the parent is quick: every second it is back in its
wait before anything else happens.
-/

namespace Postmortem

/-- How a wait ends: the program ended by itself, or was killed for taking too long. -/
inductive Verdict where
  | ended (ending : Ending)
  | timedOut
  deriving Repr, DecidableEq

/-- Where the parent is. -/
inductive Watcher where
  /-- About to arm the alarm, if there is a timeout. -/
  | arming
  /-- About to wait. -/
  | entering
  | waiting
  /-- Interrupted in the wait. -/
  | woken
  /-- About to kill the program. -/
  | killing
  /-- A second was to be taken away, and there was none. -/
  | panicked
  | finished (verdict : Verdict)
  deriving Repr, DecidableEq

/-- A wait in progress. -/
structure Watch where
  watcher : Watcher
  /-- Seconds left, if there is a timeout. -/
  remaining : Option Nat
  /-- Is an alarm pending? -/
  alarm : Bool
  /-- How the program ended, if it has. -/
  child : Option Ending
  /-- Is the program still to be waited for? -/
  unreaped : Bool
  /-- How often a second was counted. -/
  ticks : Nat
  deriving Repr, DecidableEq

/-- The signal by which a program is killed that takes too long. -/
def killSignal : Nat := 9

namespace Watch

/-- The wait for a program that has just been started. -/
def start (budget : Option UInt64) : Watch :=
  { watcher := .arming, remaining := budget.map UInt64.toNat, alarm := false, child := none
    unreaped := true, ticks := 0 }

/-- The next move of the parent; none while it waits, and none once it is done with the program. -/
def move (w : Watch) : Option Watch :=
  match w.watcher with
  | .arming => some { w with watcher := .entering, alarm := w.alarm || w.remaining.isSome }
  | .entering =>
    match w.child with
    | some ending => some { w with watcher := .finished (.ended ending), unreaped := false }
    | none => some { w with watcher := .waiting }
  | .woken =>
    match w.remaining with
    | some 0 => some { w with watcher := .panicked, alarm := false, ticks := w.ticks + 1 }
    | some (left + 1) =>
      some { w with
        watcher := if left = 0 then .killing else .arming
        remaining := some left
        ticks := w.ticks + 1 }
    | none => some { w with watcher := .arming, ticks := w.ticks + 1 }
  | .killing =>
    some { w with
      watcher := .finished .timedOut
      alarm := false
      child := some (w.child.getD (.killed killSignal))
      unreaped := false }
  | .waiting => none
  | .panicked => none
  | .finished _ => none

/-- A pending alarm goes off, and interrupts the parent if it waits. -/
def expire (w : Watch) : Watch :=
  if w.alarm then
    { w with alarm := false, watcher := if w.watcher = .waiting then .woken else w.watcher }
  else w

/-- The program ends, and the parent's wait with it. -/
def childEnds (w : Watch) (ending : Ending) : Watch :=
  if w.child.isSome then w
  else if w.watcher = .waiting then
    { w with child := some ending, watcher := .finished (.ended ending), unreaped := false }
  else { w with child := some ending }

/-- The parent moves on until it waits or has finished; it does so in at most `n` moves. -/
def settle : (n : Nat) → Watch → Watch
  | 0, w => w
  | n + 1, w =>
    match w.move with
    | some w => settle n w
    | none => w

/-- From one wait to the next the parent counts, arms and enters, or kills. -/
def movesPerSecond : Nat := 3

/-- The seconds go by, at most `seconds` of them. The program ends by itself when `lifetime` seconds
    have been counted. -/
def passFrom (lifetime : Option Nat) (ending : Ending) : (seconds : Nat) → Watch → Watch
  | 0, w => w
  | seconds + 1, w =>
    if lifetime = some w.ticks then w.childEnds ending
    else
      let w := settle movesPerSecond w.expire
      if w.watcher = .waiting then passFrom lifetime ending seconds w else w

/-- The course of a wait for a program that ends after `lifetime` seconds, or never. Without a
    timeout no time is counted: the parent waits for the end of the program, however long. -/
def run (budget : Option UInt64) (lifetime : Option Nat) (ending : Ending) : Watch :=
  let w := settle movesPerSecond (start budget)
  match budget with
  | some seconds => passFrom lifetime ending (seconds.toNat + 1) w
  | none => if lifetime.isSome then w.childEnds ending else w

end Watch

end Postmortem
