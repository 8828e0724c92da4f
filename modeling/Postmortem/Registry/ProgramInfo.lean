import Postmortem.Registry.Keyed

/-! # Program information

Short facts about the program, such as its version, that every report shows. They are kept as a
table and, beside it, as the text that reports print, so that a report has nothing to compute.
-/

namespace Postmortem

/-- The facts and their printed form. -/
structure ProgramInfo where
  entries : Keyed Bytes
  rendered : Bytes
  deriving Repr, DecidableEq

namespace ProgramInfo

/-- No facts. -/
def empty : ProgramInfo := ⟨[], []⟩

/-- One fact as a line. -/
def line (key value : Bytes) : Bytes := key ++ utf8 ": " ++ value ++ [Bytes.newline]

/-- The facts as lines, in the order of their keys. -/
def render (entries : Keyed Bytes) : Bytes :=
  entries.flatMap fun (key, value) => line key value

/-- States a fact; an empty value takes it back. -/
def set (info : ProgramInfo) (key value : Bytes) : ProgramInfo :=
  let entries :=
    if value.isEmpty then info.entries.erase key else info.entries.insert key value
  ⟨entries, render entries⟩

/-- The value stated for a key. -/
def get? (info : ProgramInfo) (key : Bytes) : Option Bytes := info.entries.get? key

end ProgramInfo

end Postmortem
