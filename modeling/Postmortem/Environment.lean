import Postmortem.CString

/-! # The process environment

The environment is an array of C strings of the form `name=value`. A look-up scans the array as it
lies in memory, entry by entry, and yields what follows the first `name=`.
-/

namespace Postmortem

/-- The entries of the environment, in order. An entry need not have the form `name=value`. -/
structure Environment where
  entries : List CString
  deriving Repr, DecidableEq, Inhabited

namespace Environment

/-- The byte between a name and its value. -/
def equals : UInt8 := 61

/-- Scans an environment array for the value of `name`. Each entry is compared with the name as far
    as that reaches; the byte after it is looked at only where the two agree. -/
def scan (name : CString) : List Memory → Except Overread (Option CString)
  | [] => .ok none
  | entry :: rest => do
    let length := name.bytes.length
    if ← Memory.agree length entry (name.memory []) then
      if (← Memory.head (entry.drop length)) = equals then
        return some (.untilNul (← Memory.string (entry.drop (length + 1))))
      else scan name rest
    else scan name rest

/-- The value of `name` in an environment array; a null array defines nothing. -/
def find (array : Option (List Memory)) (name : CString) : Except Overread (Option CString) :=
  match array with
  | none => .ok none
  | some entries => scan name entries

/-- The value of `name` in the environment. -/
def get? (env : Environment) (name : CString) : Option CString :=
  match find (some (env.entries.map (·.memory []))) name with
  | .ok value => value
  | .error _ => none

/-- Does the entry define `name`? -/
def defines (name entry : CString) : Bool :=
  (name.bytes ++ [equals]).isPrefixOf entry.bytes

/-- The entry that gives `name` a value. -/
def entry (name value : CString) : CString :=
  ⟨name.bytes ++ equals :: value.bytes, by
    simp only [List.mem_append, List.mem_cons, not_or]
    exact ⟨name.nul_notMem, by decide, value.nul_notMem⟩⟩

/-- Removes every definition of `name`. -/
def erase (env : Environment) (name : CString) : Environment :=
  ⟨env.entries.filter fun e => !defines name e⟩

/-- Gives `name` a value. -/
def insert (env : Environment) (name value : CString) : Environment :=
  ⟨(env.erase name).entries ++ [entry name value]⟩

end Environment

end Postmortem
