import Mathlib
import Postmortem.Frames

/-! # Numbering the frames of a stack

Leaving out the frames that nothing is known about comes before numbering: the lines are those of the
frames that are left, as if there had never been others. Only a stack without any frames is told apart
from one of which no frame is left.
-/

namespace Postmortem.Frames

variable {symbolize : Symbolizer} {frames : List Address} {skipUnknown : Bool}

/-- The frames that something is known about. -/
def known (symbolize : Symbolizer) (frames : List Address) : List Address :=
  frames.filter fun address => symbolize address ≠ utf8 "<unknown>"

theorem linesFrom_getElem? (number i : Nat) :
    (linesFrom symbolize false number frames)[i]? =
      frames[i]?.map fun address => line (number + i) address (symbolize address) := by
  induction frames generalizing number i with
  | nil => rfl
  | cons address rest ih =>
      cases i with
      | zero => rfl
      | succ i =>
          have later := ih (number + 1) i
          rw [Nat.add_right_comm] at later
          exact later

/-- A frame that is left out leaves no gap. -/
theorem linesFrom_skip (number : Nat) :
    linesFrom symbolize true number frames =
      linesFrom symbolize false number (known symbolize frames) := by
  -- A frame that is left out takes no number, so both sides go on from the same one.
  induction frames generalizing number with
  | nil => rfl
  | cons address rest ih =>
      have word : unknownSymbol = utf8 "<unknown>" := rfl
      by_cases unknown : symbolize address = unknownSymbol
      · have left : known symbolize (address :: rest) = known symbolize rest :=
          List.filter_cons_of_neg (by simpa [← word] using unknown)
        rw [left, ← ih, linesFrom, if_pos (by simpa using unknown)]
      · have kept : known symbolize (address :: rest) = address :: known symbolize rest :=
          List.filter_cons_of_pos (by simpa [← word] using unknown)
        rw [kept, linesFrom, if_neg (by simpa using unknown), linesFrom, ih]
        simp

theorem lines_of_ne_nil (nonempty : frames ≠ []) :
    lines symbolize frames skipUnknown = linesFrom symbolize skipUnknown 0 frames := by
  rw [lines, if_neg (by simpa using nonempty)]

theorem flatten_printed :
    (printed symbolize frames skipUnknown).flatten =
      (lines symbolize frames skipUnknown).flatMap (· ++ utf8 "\n") := by
  rw [printed]
  induction lines symbolize frames skipUnknown with
  | nil => rfl
  | cons l rest ih =>
      rw [List.flatMap_cons, List.flatten_append, ih, List.flatMap_cons]
      rfl

/-- A stack with frames has a line for each of them, in order, with its number, its address and what
    is known about it. Without the unknown frames the lines are those of the frames that are left,
    numbered as if there were no others, and there is no line at all if no frame is left. Printing
    writes the lines, each followed by its end. -/
theorem lines_numbered (symbolize : Symbolizer) (frames : List Address) (nonempty : frames ≠ []) :
    (∀ i, (lines symbolize frames false)[i]? =
      frames[i]?.map fun address => line i address (symbolize address)) ∧
    (∀ i, (lines symbolize frames true)[i]? =
      (known symbolize frames)[i]?.map fun address => line i address (symbolize address)) ∧
    (known symbolize frames ≠ [] →
      lines symbolize frames true = lines symbolize (known symbolize frames) false) ∧
    (known symbolize frames = [] → lines symbolize frames true = []) ∧
    ∀ skipUnknown, (printed symbolize frames skipUnknown).send none =
      ⟨(lines symbolize frames skipUnknown).flatMap (· ++ utf8 "\n"), false⟩ := by
  refine ⟨fun i => ?_, fun i => ?_, fun some => ?_, fun none => ?_, fun skipUnknown => ?_⟩
  · rw [lines_of_ne_nil nonempty, linesFrom_getElem?, Nat.zero_add]
  · rw [lines_of_ne_nil nonempty, linesFrom_skip, linesFrom_getElem?, Nat.zero_add]
  · rw [lines_of_ne_nil nonempty, lines_of_ne_nil some, linesFrom_skip]
  · rw [lines_of_ne_nil nonempty, linesFrom_skip, none, linesFrom]
  · rw [Fragments.send, flatten_printed]

/-- Knows the even addresses only. -/
def evenOnly : Symbolizer := fun address =>
  if address % 2 = 0 then utf8 "even" else unknownSymbol

/-- The frames that are left are numbered from zero, and the lines of a stack of which none is left
    are not those of an empty stack. -/
theorem even_lines :
    lines evenOnly [3, 2, 5, 4] true =
      [utf8 " #0   0x0000000000000002 in even", utf8 " #1   0x0000000000000004 in even"] ∧
    lines evenOnly [3, 5] true = [] ∧
    lines evenOnly [] true ≠ [] := by
  refine ⟨?_, (lines_numbered evenOnly [3, 5] (by decide)).2.2.2.1 (by decide), by decide⟩
  rw [(lines_numbered evenOnly [3, 2, 5, 4] (by decide)).2.2.1 (by decide)]
  decide +kernel

end Postmortem.Frames
