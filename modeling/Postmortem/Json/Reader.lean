import Postmortem.Json.Number

/-! # Reading JSON

Readers take the data out of a value. A reader goes through the value in the order of the text, and
the first thing that is wrong is its answer, whether that is the form of the text or what it says.
-/

namespace Postmortem.Json

/-- What was found where something else was expected. -/
inductive Found where
  | null
  | boolean (b : Bool)
  | whole (x : Int)
  | floating (text : List Char)
  | text (s : List Char)
  | sequence
  | map
  deriving Repr, DecidableEq

/-- What is wrong with what a text says. -/
inductive Complaint where
  | missingField (name : String)
  | duplicateField (name : String)
  | unknownField (name : List Char) (known : List String)
  | unknownVariant (name : List Char) (known : List String)
  | wrongKind (found : Found) (expected : String)
  | outOfRange (x : Int) (expected : String)
  | wrongLength (length : Nat) (expected : String)
  | durationOverflow
  deriving Repr, DecidableEq

/-- Why a text is refused: for its form, or for what it says. -/
inductive ReadError where
  | form (fault : Fault)
  | content (complaint : Complaint)
  deriving Repr, DecidableEq

/-- A name between backquotes. -/
def ticked (name : List Char) : List Char := '\x60' :: name ++ ['\x60']

/-- What was found, in words. -/
def Found.describe : Found → List Char
  | .null => "null".toList
  | .boolean b => "boolean ".toList ++ ticked (if b then Word.yes.spelling else Word.no.spelling)
  | .whole x => "integer ".toList ++ ticked (toString x).toList
  | .floating digits => "floating point ".toList ++ ticked digits
  | .text s => "string ".toList ++ Text.quotedChars s
  | .sequence => "sequence".toList
  | .map => "map".toList

/-- The names that are known, in words. -/
def oneOf (known : List String) : List Char :=
  let names := known.map fun name => ticked name.toList
  match names with
  | [a, b] => a ++ " or ".toList ++ b
  | names => "one of ".toList ++ List.intercalate [',', ' '] names

/-- The wording of a complaint. -/
def Complaint.describe : Complaint → List Char
  | .missingField name => "missing field ".toList ++ ticked name.toList
  | .duplicateField name => "duplicate field ".toList ++ ticked name.toList
  | .unknownField name known =>
    "unknown field ".toList ++ ticked name ++ ", expected ".toList ++ oneOf known
  | .unknownVariant name known =>
    "unknown variant ".toList ++ ticked name ++ ", expected ".toList ++ oneOf known
  | .wrongKind found expected =>
    "invalid type: ".toList ++ found.describe ++ ", expected ".toList ++ expected.toList
  | .outOfRange x expected =>
    "invalid value: ".toList ++ (Found.whole x).describe ++ ", expected ".toList
      ++ expected.toList
  | .wrongLength length expected =>
    "invalid length ".toList ++ (toString length).toList ++ ", expected ".toList
      ++ expected.toList
  | .durationOverflow => "overflow deserializing Duration".toList

/-- The wording of a complaint. -/
def Complaint.message (c : Complaint) : String := String.ofList c.describe

/-- What comes of reading. -/
abbrev Reading (α : Type) := Except ReadError α

/-- A failure for the form of the text. -/
def refuse {α : Type} (fault : Fault) : Reading α := .error (.form fault)

/-- A failure for what the text says. -/
def complain {α : Type} (complaint : Complaint) : Reading α := .error (.content complaint)

/-- What depends only on the form. -/
def formal {α : Type} (x : Except Fault α) : Reading α := x.mapError .form

namespace Quotation

/-- Does a unit begin, or end, a pair that stands for one character? -/
def isLeading (n : Nat) : Bool := 0xD800 ≤ n && n ≤ 0xDBFF
def isTrailing (n : Nat) : Bool := 0xDC00 ≤ n && n ≤ 0xDFFF

/-- The character that a pair of units stands for. -/
def pair (leading trailing : Nat) : Char :=
  Char.ofNat (0x10000 + (leading - 0xD800) * 0x400 + (trailing - 0xDC00))

/-- The characters of some parts. Units beyond the first plane have to come in pairs; what follows
    a leading unit that is alone decides what is wrong with it. -/
def characters (fault : Option Fault) : List TextPart → Except Fault (List Char)
  | [] => (demand fault).map fun _ => []
  | .char c :: rest => (characters fault rest).map (c :: ·)
  | .unit n :: rest =>
    if isTrailing n then .error .malformed
    else if isLeading n then
      match rest with
      | [] => .error (fault.getD .malformed)
      | .unit m :: rest =>
        if isTrailing m then (characters fault rest).map (pair n m :: ·) else .error .malformed
      | .char _ :: _ => .error .malformed
    else (characters fault rest).map (Char.ofNat n :: ·)

/-- The text that was quoted. -/
def decode (q : Quotation) : Except Fault (List Char) := characters q.fault q.parts

end Quotation

namespace Value

/-- The complaint that a value is not what was expected. For a sequence or an object it is enough
    that it begins; anything else is read first. -/
def wrongKind {α : Type} (v : Value) (expected : String) : Reading α :=
  match v with
  | .word w fault => do
    formal (demand fault)
    complain (.wrongKind (match w with
      | .null => .null
      | .yes => .boolean true
      | .no => .boolean false) expected)
  | .number n => do
    match ← formal n.number with
    | .whole x => complain (.wrongKind (.whole x) expected)
    | .floating x => complain (.wrongKind (.floating (floatText x)) expected)
  | .text q => do complain (.wrongKind (.text (← formal q.decode)) expected)
  | .sequence _ _ => complain (.wrongKind .sequence expected)
  | .object _ _ => complain (.wrongKind .map expected)
  | .broken fault => refuse fault

/-- Reads a truth value. -/
def readBool (v : Value) : Reading Bool :=
  match v with
  | .word .yes fault => do formal (demand fault); return true
  | .word .no fault => do formal (demand fault); return false
  | v => v.wrongKind "a boolean"

/-- Reads a text. -/
def readString (v : Value) : Reading String :=
  match v with
  | .text q => do return String.ofList (← formal q.decode)
  | v => v.wrongKind "a string"

/-- Reads a whole number from a range. -/
def readInt (low high : Int) (expected : String) (v : Value) : Reading Int :=
  match v with
  | .number n => do
    match ← formal n.number with
    | .whole x => if low ≤ x ∧ x ≤ high then return x else complain (.outOfRange x expected)
    | .floating x => complain (.wrongKind (.floating (floatText x)) expected)
  | v => v.wrongKind expected

/-- Reads nothing. -/
def readUnit (v : Value) : Reading Unit :=
  match v with
  | .word .null fault => formal (demand fault)
  | v => v.wrongKind "unit"

/-- Reads a value that may be null. -/
def readOption {α : Type} (read : Value → Reading α) (v : Value) : Reading (Option α) :=
  match v with
  | .word .null fault => do formal (demand fault); return none
  | v => (read v).map some

/-- Reads one item after another. -/
def readItems {α : Type} (read : Value → Reading α) : List Value → Reading (List α)
  | [] => .ok []
  | item :: rest => do
    let first ← read item
    return first :: (← readItems read rest)

/-- The end of a sequence or an object. -/
def readClosing : Closing → Reading Unit
  | .closed => .ok ()
  | .brokenOff fault => refuse fault

/-- Reads a sequence of any length. -/
def readList {α : Type} (read : Value → Reading α) (v : Value) : Reading (List α) :=
  match v with
  | .sequence items closing => do
    let result ← readItems read items
    readClosing closing
    return result
  | v => v.wrongKind "a sequence"

/-- Takes the next item of a sequence of fixed length, the one with this index. -/
def nextItem {α : Type} (read : Value → Reading α) (index : Nat) (expected : String)
    (closing : Closing) : List Value → Reading (α × List Value)
  | [] => do
    readClosing closing
    complain (.wrongLength index expected)
  | item :: rest => do return (← read item, rest)

/-- The end of a sequence or object after everything that was expected. -/
def noMore {α : Type} (rest : List α) (closing : Closing) : Reading Unit :=
  if rest.isEmpty then readClosing closing else refuse .malformed

/-- Reads a key. -/
def readKey (key : Value) : Reading (List Char) :=
  match key with
  | .text q => formal q.decode
  | .broken fault => refuse fault
  | _ => refuse .malformed

/-- Sets a field that must not have been set before. -/
def setOnce {α : Type} (name : String) (field : Option α) (read : Value → Reading α)
    (v : Value) : Reading (Option α) :=
  match field with
  | some _ => complain (.duplicateField name)
  | none => (read v).map some

/-- The value of a field that has to be there. -/
def required {α : Type} (name : String) : Option α → Reading α
  | some a => .ok a
  | none => complain (.missingField name)

/-- Reads the members of an object one after another, each into what was read before. -/
def readMembers {σ : Type} (member : List Char → Value → σ → Reading σ) :
    List (Value × Value) → σ → Reading σ
  | [], s => .ok s
  | (key, item) :: rest, s => do
    let name ← readKey key
    readMembers member rest (← member name item s)

end Value

end Postmortem.Json
