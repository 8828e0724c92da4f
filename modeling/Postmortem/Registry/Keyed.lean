import Postmortem.Bytes

/-! # Ordered look-up tables

The registries keep what was registered under a key in increasing order of the keys, each key once.
-/

namespace Postmortem

/-- Values under byte-string keys, in increasing order of the keys. -/
abbrev Keyed (α : Type) := List (Bytes × α)

namespace Keyed

variable {α : Type}

/-- Puts a value under a key, replacing the one that was there. -/
def insert (key : Bytes) (value : α) : Keyed α → Keyed α
  | [] => [(key, value)]
  | (k, v) :: rest =>
    if key = k then (key, value) :: rest
    else if Bytes.precedes key k then (key, value) :: (k, v) :: rest
    else (k, v) :: insert key value rest

/-- Removes a key. -/
def erase (key : Bytes) (table : Keyed α) : Keyed α :=
  table.filter fun (k, _) => k ≠ key

/-- The value under a key. -/
def get? (key : Bytes) (table : Keyed α) : Option α :=
  (table.find? fun (k, _) => k = key).map (·.2)

end Keyed

end Postmortem
