import Postmortem.Symbol.Table

/-! # Capturing the stack

A stack is a list of frames, innermost first. Every function on the way to the one that walks the
stack has a frame of its own, which the walk finds first and leaves out. There are three ways to
walk: along the unwind tables, by the facility of the C library, or not at all.

The C library fills the caller's slots first and the frames to leave out are then taken from those,
so that it returns fewer frames than there are slots. The walk along the tables discards as it goes.
-/

namespace Postmortem

/-- Which function a frame belongs to: one of those that take part in capturing, or another. -/
inductive Routine where
  | tracer
  | walk
  | captureInto
  | capture
  | caller
  deriving Repr, DecidableEq

/-- A frame of a stack. -/
structure Frame where
  routine : Routine
  address : Address
  deriving Repr, DecidableEq

/-- The frames of a thread, innermost first. -/
abbrev Stack := List Frame

/-- The way in which stacks are walked. -/
inductive UnwinderKind where
  | unwindTables
  | execinfo
  | unsupported
  deriving Repr, DecidableEq, Inhabited

/-- A sum of two counts, which stops at the largest one. -/
def saturatingAdd (a b : Nat) : Nat := min (a + b) (UInt64.size - 1)

namespace UnwinderKind

/-- The name used in configurations. -/
def name : UnwinderKind → String
  | .unwindTables => "UnwindTables"
  | .execinfo => "Execinfo"
  | .unsupported => "Unsupported"

/-- All kinds, in the order of their numbers. -/
def all : List UnwinderKind := [.unwindTables, .execinfo, .unsupported]

/-- The kind of this name. -/
def ofName? (name : String) : Option UnwinderKind :=
  all.find? fun kind => kind.name = name

/-- The kind with this number; numbers that are not in use stand for no support. -/
def ofNumber (n : Nat) : UnwinderKind := (all[n]?).getD .unsupported

end UnwinderKind

namespace Unwinder

/-- The state of a walk along the tables. Until the walking function itself is met, the frames are
    those of the tracer, and are kept only for want of better ones. -/
structure Walk where
  belowSelf : Bool
  toSkip : Nat
  kept : List Address
  deriving Repr, DecidableEq

/-- Walks on from a state, with `slots` places for frames and `skip` frames to leave out. -/
def walkFrom (slots skip : Nat) (state : Walk) : Stack → List Address
  | [] => state.kept
  | frame :: rest =>
    if state.belowSelf && frame.routine = .walk then
      walkFrom slots skip ⟨false, skip, []⟩ rest
    else if 0 < state.toSkip then
      walkFrom slots skip { state with toSkip := state.toSkip - 1 } rest
    else if state.kept.length < slots then
      walkFrom slots skip { state with kept := state.kept ++ [frame.address] } rest
    else if state.belowSelf then walkFrom slots skip state rest
    else state.kept

/-- The addresses in the frames of a tracer that has but one of its own. How many it has depends on
    how it was compiled. -/
def loneTracer : List Address := [1]

/-- The frames that a walk along the tables finds: the tracer's own, that of the walking function,
    and the caller's. -/
def traced (own : List Address) (stack : Stack) : Stack :=
  own.map (Frame.mk .tracer) ++ ⟨.walk, 2⟩ :: stack

/-- What the C library finds: the frame of the walking function comes first. -/
def backtrace (stack : Stack) : List Address := 2 :: stack.map (·.address)

/-- The largest number of entries that the C library can be asked for. -/
def maxEntries : Nat := UInt32.size / 2 - 1

/-- Fills at most `slots` places with the return addresses of the stack, `skip` frames being left
    out at the inner end. -/
def walk (kind : UnwinderKind) (slots skip : Nat) (stack : Stack)
    (own : List Address := loneTracer) : List Address :=
  match kind with
  | .unwindTables => walkFrom slots skip ⟨true, skip, []⟩ (traced own stack)
  | .execinfo => ((backtrace stack).take (min slots maxEntries)).drop (saturatingAdd skip 1)
  | .unsupported => []

/-- Fills at most `slots` places, starting at the caller. -/
def captureInto (kind : UnwinderKind) (slots skip : Nat) (stack : Stack)
    (own : List Address := loneTracer) : List Address :=
  if slots = 0 then [] else walk kind slots (saturatingAdd skip 1) (⟨.captureInto, 3⟩ :: stack) own

/-- The frames from the caller on, at most `depth` of them, `skip` frames further out. -/
def capture (kind : UnwinderKind) (depth skip : Nat) (stack : Stack)
    (own : List Address := loneTracer) : List Address :=
  captureInto kind depth (saturatingAdd skip 1) (⟨.capture, 4⟩ :: stack) own

/-- The greatest number of frames in one trace. -/
def maxDepth : Nat := 4096

/-- The frames of the caller of a function that itself has a frame. -/
def callerFrames (kind : UnwinderKind) (depth : Nat) (stack : Stack) : List Address :=
  capture kind depth 1 (⟨.caller, 5⟩ :: stack)

end Unwinder

end Postmortem
