import Postmortem.Bytes

/-! # External programs

What this library has to know about the programs it starts: what they append to which files, how
long they run, and how they end.
-/

namespace Postmortem

/-- How a program ends. -/
inductive Ending where
  | exited (status : Nat)
  | killed (signal : Nat)
  deriving Repr, DecidableEq

/-- A part of a text that a program writes: fixed bytes, the path it was started by, or one of its
    arguments. -/
inductive TextPart where
  | literal (bytes : Bytes)
  | path
  | argument (index : Nat)
  deriving Repr, DecidableEq

/-- A text that a program appends to the file named by one of its arguments. -/
structure Appending where
  target : Nat
  text : List TextPart
  deriving Repr, DecidableEq

/-- A program: what it appends, and after how many seconds it ends and how; a program without a
    lifetime never ends by itself. -/
structure Program where
  appends : List Appending
  lifetime : Option Nat
  ending : Ending
  /-- Does the program leave a record of how it was started? -/
  recorded : Bool
  deriving Repr, DecidableEq

/-- The text of one appending, by the path and the arguments of the run. -/
def Appending.render (a : Appending) (path : Bytes) (arguments : List Bytes) : Bytes :=
  a.text.flatMap fun
    | .literal bytes => bytes
    | .path => path
    | .argument index => (arguments[index]?).getD []

end Postmortem
