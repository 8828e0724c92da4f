import Postmortem.Bytes

/-! # Grammars of mangled names

A mangled name is read by a grammar whose alternatives are tried in order: once the condition of a
branch matches, the other alternatives are out. A name may refer back to its own earlier parts by
number, so a table of parts grows while it is read; what an alternative has added stays there even
if the alternative fails in the end. Rules may use each other and themselves down to a given depth,
and a name that goes deeper is given up.
-/

namespace Postmortem.Mangled

/-- An earlier part of a name, as far as it matters for what follows: a name within a scope, a name
    with template arguments, or anything else. -/
inductive Part where
  | scoped
  | withArguments
  | other
  deriving Repr, DecidableEq

/-- How far a name has been read: the rest, the table of parts, and the part that was read last where
    parts of a scope follow each other. -/
structure Position where
  rest : Bytes
  parts : List Part
  last : Option Part
  deriving Repr, DecidableEq

/-- How an attempt to read something ends. -/
inductive Outcome where
  | found (p : Position)
  /-- It is not there; the table may have grown all the same. -/
  | absent (parts : List Part)
  | tooDeep
  deriving Repr, DecidableEq

/-- What may stand in a name, `ρ` being the rules that a grammar has names for. -/
inductive Form (ρ : Type) where
  | nothing
  | never
  /-- These characters. -/
  | text (s : String)
  /-- One of these characters. -/
  | oneOf (s : String)
  /-- Nothing, with this byte next. -/
  | next (b : UInt8)
  /-- Nothing, with this byte not next. -/
  | notNext (b : UInt8)
  /-- A number in decimal. -/
  | number
  /-- An identifier preceded by its length. -/
  | identifier
  /-- Everything before this byte. -/
  | before (b : UInt8)
  /-- A reference to an earlier part or to a part of the standard library. -/
  | reference
  /-- Nothing, but the part just read is entered in the table. -/
  | enter (part : Part)
  /-- Nothing, but a part of a scope has been read. It is entered in the table unless the scope ends
      with it. -/
  | enterScope (part : Part)
  /-- Nothing, where the part read last has a scope or template arguments. -/
  | complete
  | rule (r : ρ)
  | both (a b : Form ρ)
  /-- If the condition matches, what is to follow it, and otherwise what is to stand in its place. -/
  | branch (condition yes no : Form ρ)
  /-- As often as it matches. -/
  | many (a : Form ρ)

/-! ## Numbers and identifiers -/

/-- The largest number. -/
def maxNumber : Nat := UInt64.size / 2 - 1

/-- A digit in bases up to 36, with capital letters. -/
def digit? (b : UInt8) : Option Nat :=
  if Bytes.isDigit b then some (b.toNat - 48)
  else if 65 ≤ b && b ≤ 90 then some (b.toNat - 55)
  else none

/-- A number without needless zeros in some base, and what follows it. -/
def numberIn? (base : Nat) (s : Bytes) : Option (Nat × Bytes) :=
  let isDigit := fun b => (digit? b).any (· < base)
  let digits := s.takeWhile isDigit
  let value := digits.foldl (fun n b => n * base + (digit? b).getD 0) 0
  if digits.isEmpty || (1 < digits.length && digits.head? = some 48) || maxNumber < value then none
  else some (value, s.drop digits.length)

/-- May the character stand in an identifier? -/
def isIdentifierByte (b : UInt8) : Bool :=
  Bytes.isDigit b || (65 ≤ b && b ≤ 90) || (97 ≤ b && b ≤ 122) || b = 36 || b = 46 || b = 95

/-- An identifier preceded by its length, and what follows it. -/
def identifier? (s : Bytes) : Option (Bytes × Bytes) :=
  match numberIn? 10 s with
  | some (length, rest) =>
    let name := rest.take length
    if 0 < length && length ≤ rest.length && name.all isIdentifierByte then
      some (name, rest.drop length)
    else none
  | none => none

/-! ## Reading -/

namespace Position

/-- Something was read, and this is left. -/
def goOn (p : Position) : Option Bytes → Outcome
  | some rest => .found { p with rest }
  | none => .absent p.parts

/-- Something holds at this place. -/
def holds (p : Position) (b : Bool) : Outcome := if b then .found p else .absent p.parts

/-- The second letters of the parts of the standard library. -/
def standardParts : Bytes := utf8 "tabsiod"

/-- A reference: to a part of the standard library, or by number to the table. The number is written
    in base 36, and left out for the first part. -/
def reference (p : Position) : Outcome :=
  match p.rest with
  | 83 :: rest =>
    match rest with
    | b :: after =>
      if b ∈ standardParts then .found { p with rest := after, last := none }
      else
        let (index, after) := match numberIn? 36 rest with
          | some (n, after) => (n + 1, after)
          | none => (0, rest)
        match p.parts[index]?, after with
        | some part, 95 :: after => .found { p with rest := after, last := some part }
        | _, _ => .absent p.parts
    | [] => .absent p.parts
  | _ => .absent p.parts

/-- The part just read is entered in the table. -/
def enter (p : Position) (part : Part) : Position := { p with parts := p.parts ++ [part] }

/-- A part of a scope has been read. -/
def enterScope (p : Position) (part : Part) : Position :=
  let p := { p with last := some part }
  if p.rest.head? = some 69 then p else p.enter part

end Position

/-- Reads something again and again, at most `n` times. -/
def repeated (read : Position → Outcome) : (n : Nat) → Position → Outcome
  | 0, p => .found p
  | n + 1, p =>
    match read p with
    | .found after => repeated read n after
    | .absent parts => .found { p with parts }
    | .tooDeep => .tooDeep

namespace Form

variable {ρ : Type}

/-- Reads a form, given how to read the rules that it names. What is read repeatedly is never
    empty. -/
def read (call : ρ → Position → Outcome) : Form ρ → Position → Outcome
  | .nothing, p => .found p
  | .never, p => .absent p.parts
  | .text s, p => p.goOn ((utf8 s).isPrefixOf? p.rest)
  | .oneOf s, p =>
    match p.rest with
    | b :: rest => if b ∈ utf8 s then .found { p with rest } else .absent p.parts
    | [] => .absent p.parts
  | .next b, p => p.holds (p.rest.head? = some b)
  | .notNext b, p => p.holds (p.rest.head? ≠ some b)
  | .number, p => p.goOn ((numberIn? 10 p.rest).map (·.2))
  | .identifier, p => p.goOn ((identifier? p.rest).map (·.2))
  | .before b, p => .found { p with rest := p.rest.dropWhile (· ≠ b) }
  | .reference, p => p.reference
  | .enter part, p => .found (p.enter part)
  | .enterScope part, p => .found (p.enterScope part)
  | .complete, p => p.holds (p.last = some .scoped || p.last = some .withArguments)
  | .rule r, p => call r p
  | .both a b, p =>
    match a.read call p with
    | .found p => b.read call p
    | outcome => outcome
  | .branch condition yes no, p =>
    match condition.read call p with
    | .found p => yes.read call p
    | .absent parts => no.read call { p with parts }
    | .tooDeep => .tooDeep
  | .many a, p => repeated (a.read call) p.rest.length p

/-- One after another. -/
def inOrder : List (Form ρ) → Form ρ
  | [] => .nothing
  | [a] => a
  | a :: rest => .both a (inOrder rest)

/-- The first that matches. -/
def firstOf : List (Form ρ) → Form ρ
  | [] => .never
  | [a] => a
  | a :: rest => .branch a .nothing (firstOf rest)

/-- If it is there. -/
def optional (a : Form ρ) : Form ρ := .branch a .nothing .nothing

/-- At least once. -/
def oneOrMore (a : Form ρ) : Form ρ := .both a (.many a)

end Form

/-- Reads a rule of a grammar, with rules within rules down to a depth. -/
def readRule {ρ : Type} (grammar : ρ → Form ρ) : (depth : Nat) → ρ → Position → Outcome
  | 0, _, _ => .tooDeep
  | depth + 1, r, p => (grammar r).read (readRule grammar depth) p

end Postmortem.Mangled
