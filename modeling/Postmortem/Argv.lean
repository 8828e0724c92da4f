import Postmortem.CString
import Postmortem.Text.Quoted

/-! # Argument vectors

The arguments of a program that a report starts come from a template. An argument that is exactly
`$cmd` becomes the command, one that is exactly a token of the substitution table becomes its
value, and any other is passed as it is. The result is an array of slots ended by a null.
-/

namespace Postmortem

/-- Tokens and what they stand for; of two entries for one token the first counts. -/
abbrev Substitutions := List (CString × CString)

/-- More arguments than the vector has room for. -/
structure TooManyArguments where
  count : Nat
  deriving Repr, DecidableEq

/-- An argument vector as a program is started with: slots that hold an argument or null. -/
structure Argv where
  slots : List (Option CString)
  size : Nat
  deriving Repr, DecidableEq

namespace Argv

/-- How many slots there are, the terminating null included. -/
def slotCount : Nat := 32

/-- The token that stands for the command itself. -/
def commandToken : CString := .text "$cmd"

end Argv

/-- The wording of the failure. -/
def TooManyArguments.message (e : TooManyArguments) : String :=
  "Too many arguments (" ++ toString e.count ++ "), at most " ++ toString (Argv.slotCount - 2)
    ++ " are supported"

namespace Argv

/-- What a template argument becomes. -/
def substitute (command : CString) (table : Substitutions) (argument : CString) : CString :=
  if argument = commandToken then command
  else
    match table.find? fun (token, _) => token = argument with
    | some (_, value) => value
    | none => argument

/-- Fills in a template. One slot stays for the null, and one more is never used. -/
def build (command : CString) (template : List CString) (table : Substitutions) :
    Except TooManyArguments Argv :=
  let count := template.length
  if slotCount ≤ count + 1 then .error ⟨count⟩
  else
    let filled := template.map fun argument => some (substitute command table argument)
    .ok ⟨filled ++ List.replicate (slotCount - count) none, count⟩

/-- The argument at an index, if there is one. -/
def get? (argv : Argv) (index : Nat) : Option CString :=
  if index < argv.size then (argv.slots[index]?).join else none

/-- The arguments in order, as the started program sees them. -/
def toList (argv : Argv) : List CString :=
  (argv.slots.takeWhile Option.isSome).filterMap id

/-- Is the slot after the last argument a null? -/
def isTerminated (argv : Argv) : Bool := argv.slots[argv.size]? = some none

/-- The arguments in the words of a log. -/
def describe (argv : Argv) : List Char :=
  Text.bracketed (argv.toList.map fun argument => Text.quotedCString argument.bytes)

end Argv

end Postmortem
