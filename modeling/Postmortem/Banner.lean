import Postmortem.Sink

/-! # Banners

A report on the error stream stands between two lines of dashes. The first has the name of the
program in the middle; the second is as wide as the first.
-/

namespace Postmortem

/-- The measures of a banner: its width, and the dashes before and after the name. -/
structure Banner where
  width : Nat
  leading : Nat
  trailing : Nat
  deriving Repr, DecidableEq

namespace Banner

/-- The least width. -/
def minWidth : Nat := 80

/-- What follows the name of the program. -/
def verdict : Bytes := utf8 " terminated"

/-- The banner for a program: as wide as it takes to have two dashes and a blank on either side. -/
def ofProgram (program : Bytes) : Banner :=
  let label := program.length + verdict.length
  let width := max minWidth (label + 6)
  let leading := (width - label) / 2 - 1
  { width, leading, trailing := width - leading - label - 2 }

/-- How many dashes are written at once. -/
def chunk : Nat := 64

/-- A run of dashes, in chunks. -/
def dashes (n : Nat) : Fragments :=
  if n = 0 then []
  else
    let size := min n chunk
    List.replicate size Bytes.dash :: dashes (n - size)
termination_by n
decreasing_by
  have : chunk = 64 := rfl
  omega

/-- The line above a report, with an empty line before it. -/
def header (banner : Banner) (program : Bytes) : Fragments :=
  [[Bytes.newline]] ++ dashes banner.leading ++ [utf8 " ", program, verdict, utf8 " "]
    ++ dashes banner.trailing ++ [[Bytes.newline]]

/-- The line below a report. -/
def footer (banner : Banner) : Fragments :=
  dashes banner.width ++ [[Bytes.newline]]

/-! ## Writing to a sink -/

open Writing (put)

/-- Writes a run of dashes. -/
def writeDashes (n : Nat) : Writing Unit :=
  if n = 0 then pure ()
  else do
    let size := min n chunk
    put (List.replicate size Bytes.dash)
    writeDashes (n - size)
termination_by n
decreasing_by
  have : chunk = 64 := rfl
  omega

/-- Writes the line above a report. -/
def writeHeader (banner : Banner) (program : Bytes) : Writing Unit := do
  put [Bytes.newline]
  writeDashes banner.leading
  put (utf8 " ")
  put program
  put verdict
  put (utf8 " ")
  writeDashes banner.trailing
  put [Bytes.newline]

/-- Writes the line below a report. -/
def writeFooter (banner : Banner) : Writing Unit := do
  writeDashes banner.width
  put [Bytes.newline]

end Banner

end Postmortem
