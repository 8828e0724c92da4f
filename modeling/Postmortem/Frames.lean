import Postmortem.Decimal
import Postmortem.Sink
import Postmortem.Symbol.Table

/-! # Lines of a stack trace

A frame is shown as its number, its address in sixteen hexadecimal digits, and what is known about
the code there.
-/

namespace Postmortem.Frames

/-- The text filled up with blanks to at least `width` bytes. -/
def padRight (width : Nat) (s : Bytes) : Bytes :=
  s ++ List.replicate (width - s.length) 32

/-- An address in sixteen hexadecimal digits. -/
def addressText (address : Address) : Bytes :=
  let digits := utf8Chars (Text.hexText address.toNat)
  utf8 "0x" ++ List.replicate (16 - digits.length) 48 ++ digits

/-- The line for one frame. -/
def line (number : Nat) (address : Address) (symbol : Bytes) : Bytes :=
  utf8 " #" ++ padRight 3 (Decimal.ofNat number) ++ utf8 " " ++ addressText address
    ++ utf8 " in " ++ symbol

/-- What stands in place of the lines when there are no frames. -/
def noneSaved : Bytes :=
  utf8 "No frames saved, stack traces probably not supported on this architecture."

/-- The lines for some frames, `number` lines having gone before. With `skipUnknown` a frame that
    nothing is known about has no line and takes no number. -/
def linesFrom (symbolize : Symbolizer) (skipUnknown : Bool) : (number : Nat) → List Address →
    List Bytes
  | _, [] => []
  | number, address :: rest =>
    let symbol := symbolize address
    if skipUnknown && symbol = unknownSymbol then linesFrom symbolize skipUnknown number rest
    else line number address symbol :: linesFrom symbolize skipUnknown (number + 1) rest

/-- The lines for the frames of a stack. -/
def lines (symbolize : Symbolizer) (frames : List Address) (skipUnknown : Bool) : List Bytes :=
  if frames.isEmpty then [noneSaved] else linesFrom symbolize skipUnknown 0 frames

/-- The lines as they are printed. -/
def printed (symbolize : Symbolizer) (frames : List Address) (skipUnknown : Bool) : Fragments :=
  (lines symbolize frames skipUnknown).flatMap fun l => [l, [Bytes.newline]]

/-- Writes lines to a sink, each with its end. -/
def writeLines : List Bytes → Writing Unit
  | [] => pure ()
  | l :: rest => do
    Writing.put l
    Writing.put [Bytes.newline]
    writeLines rest

/-- Writes the lines for the frames of a stack to a sink. -/
def print (symbolize : Symbolizer) (frames : List Address) (skipUnknown : Bool) : Writing Unit :=
  writeLines (lines symbolize frames skipUnknown)

end Postmortem.Frames
