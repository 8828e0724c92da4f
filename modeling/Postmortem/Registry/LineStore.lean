import Postmortem.Bytes

/-! # Lines and their owners

Lines for reports belong to whoever provides them. The store knows every buffer of lines that still
has an owner, under the name the owner gave it, and numbers the buffers so that one whose owner is
gone is never mistaken for a later one of the same name.
-/

namespace Postmortem

/-- A buffer of lines. While `busy` somebody is changing it and nobody else may look. -/
structure LineBuffer where
  number : Nat
  name : Bytes
  lines : List Bytes
  busy : Bool
  deriving Repr, DecidableEq

/-- The buffers that have an owner, and the number of the next one. -/
structure LineStore where
  owned : List LineBuffer
  next : Nat
  deriving Repr, DecidableEq

namespace LineStore

/-- No buffers. -/
def empty : LineStore := ⟨[], 0⟩

/-- The buffer that currently has this name. -/
def find? (store : LineStore) (name : Bytes) : Option LineBuffer :=
  store.owned.find? (·.name = name)

/-- Replaces the content of the buffer of this name, or creates it. -/
def put (store : LineStore) (name : Bytes) (lines : List Bytes) : LineStore :=
  match store.find? name with
  | some buffer =>
    { store with owned := store.owned.map fun b =>
        if b.number = buffer.number then { b with lines := lines } else b }
  | none => ⟨store.owned ++ [⟨store.next, name, lines, false⟩], store.next + 1⟩

/-- The owner of the buffer of this name goes away. -/
def drop (store : LineStore) (name : Bytes) : LineStore :=
  { store with owned := store.owned.filter (·.name ≠ name) }

/-- Marks the buffers of these names as being changed, and all others as not. -/
def withBusy (store : LineStore) (names : List Bytes) : LineStore :=
  { store with owned := store.owned.map fun b => { b with busy := names.contains b.name } }

/-- The lines of a buffer by its number, if it still has an owner and nobody is changing it. -/
def read? (store : LineStore) (number : Nat) : Option (List Bytes) :=
  match store.owned.find? (·.number = number) with
  | some buffer => if buffer.busy then none else some buffer.lines
  | none => none

end LineStore

end Postmortem
