import Postmortem.Registry.Keyed
import Postmortem.Registry.LineStore
import Postmortem.Sink

/-! # Extra lines

Lines that reports include under a heading. The registry keeps no lines, only which buffer goes
under which heading: a report shows what the buffer holds by then, and nothing if its owner is gone.
-/

namespace Postmortem

/-- The buffers registered for reports, by the number of the buffer. -/
structure ExtraLines where
  entries : Keyed Nat
  deriving Repr, DecidableEq

namespace ExtraLines

/-- Nothing registered. -/
def empty : ExtraLines := ⟨[]⟩

/-- Registers a buffer under a key. Without a buffer, or with one that is empty at this moment, the
    key is removed. -/
def set (registry : ExtraLines) (key : Bytes) (buffer : Option LineBuffer) : ExtraLines :=
  match buffer with
  | some b =>
    if b.lines.isEmpty then ⟨registry.entries.erase key⟩
    else ⟨registry.entries.insert key b.number⟩
  | none => ⟨registry.entries.erase key⟩

/-- What a preview ends with when lines are left out. -/
def truncated : Bytes := utf8 "... see full diagnostics in crash report.\n"

/-- The entries that can be shown, with their current lines. -/
def visible (registry : ExtraLines) (store : LineStore) : List (Bytes × List Bytes) :=
  registry.entries.filterMap fun (key, number) =>
    (store.read? number).map fun lines => (key, lines)

/-- The heading of an entry. -/
def heading (key : Bytes) : Fragments := [[Bytes.newline], key, utf8 ":\n"]

/-- One line, ended unless it ends itself. -/
def line (text : Bytes) : Fragments :=
  if text.getLast? = some Bytes.newline then [text] else [text, [Bytes.newline]]

/-- Is the number of lines shown so far all that may be shown? -/
def reached (max : Option Nat) (shown : Nat) : Bool :=
  match max with
  | none => false
  | some limit => limit ≤ shown

/-- The lines of one entry, `shown` lines having been shown before. The second component is the
    number of lines shown by then, or none if the preview ended here. -/
def emitLines (max : Option Nat) : (shown : Nat) → List Bytes → Fragments × Option Nat
  | shown, [] => ([], some shown)
  | shown, text :: rest =>
    if reached max shown then ([truncated], none)
    else
      let (fragments, after) := emitLines max (shown + 1) rest
      (line text ++ fragments, after)

/-- The entries one after another, `shown` lines having been shown before. -/
def emitEntries (max : Option Nat) : (shown : Nat) → List (Bytes × List Bytes) → Fragments
  | _, [] => []
  | shown, (key, lines) :: rest =>
    match emitLines max shown lines with
    | (fragments, some shown) => heading key ++ fragments ++ emitEntries max shown rest
    | (fragments, none) => heading key ++ fragments

/-- Everything registered that can be shown, each entry under its heading. With `max` the text ends
    where a further line would exceed it, with a pointer to the report. -/
def emit (registry : ExtraLines) (store : LineStore) (max : Option Nat) : Fragments :=
  emitEntries max 0 (registry.visible store)

/-! ## Writing to a sink -/

open Writing (put)

/-- Writes the lines of one entry, `shown` lines having been written before. The result is the
    number of lines written by then, or none if the preview ended here. -/
def writeLines (max : Option Nat) : (shown : Nat) → List Bytes → Writing (Option Nat)
  | shown, [] => pure (some shown)
  | shown, text :: rest => do
    if reached max shown then
      put truncated
      return none
    put text
    if text.getLast? ≠ some Bytes.newline then put [Bytes.newline]
    writeLines max (shown + 1) rest

/-- Writes the entries one after another, `shown` lines having been written before. An entry whose
    lines cannot be read is passed over. -/
def writeEntries (store : LineStore) (max : Option Nat) :
    (shown : Nat) → List (Bytes × Nat) → Writing Unit
  | _, [] => pure ()
  | shown, (key, number) :: rest =>
    match store.read? number with
    | none => writeEntries store max shown rest
    | some lines => do
      put [Bytes.newline]
      put key
      put (utf8 ":\n")
      match ← writeLines max shown lines with
      | some shown => writeEntries store max shown rest
      | none => pure ()

/-- Writes everything registered that can be shown, or a preview of it. -/
def write (registry : ExtraLines) (store : LineStore) (max : Option Nat) : Writing Unit :=
  writeEntries store max 0 registry.entries

end ExtraLines

end Postmortem
