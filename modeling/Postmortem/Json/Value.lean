import Postmortem.Json.Token
import Postmortem.Text.Quoted

/-! # Values of JSON

The tokens of a text are put together to a value, again without refusing anything: where the tokens
stop making sense the value is broken off, and the fault stands in it at the place where a reader
that goes through the value in order comes to it. A value without faults has one compact spelling.
-/

namespace Postmortem.Json

/-- How a sequence or an object ends: with its closing mark, or broken off. -/
inductive Closing where
  | closed
  | brokenOff (fault : Fault)
  deriving Repr, DecidableEq

/-- A value. The members of an object are pairs of a key and a value; a key that is no text is kept
    as what stands in its place. -/
inductive Value where
  | word (w : Word) (fault : Option Fault)
  | number (n : Numeral)
  | text (q : Quotation)
  | sequence (items : List Value) (closing : Closing)
  | object (members : List (Value × Value)) (closing : Closing)
  /-- No value, where there should be one. -/
  | broken (fault : Fault)
  deriving Repr

instance : Inhabited Value := ⟨.broken .malformed⟩

/-- A text with one value, and whether anything follows the value. -/
structure Document where
  value : Value
  trailing : Bool
  deriving Repr

/-- A sequence or object in which a value is awaited: what stands before the value in it, the last
    one first. -/
inductive Frame where
  | item (before : List Value)
  | member (before : List (Value × Value)) (key : Value)

/-- Where the assembly of a value is. The frames are those around the place, the innermost first. -/
inductive Assembly where
  /-- A value is to come. -/
  | value (frames : List Frame)
  /-- The first item of a sequence is to come, or its end. -/
  | firstItem (frames : List Frame)
  /-- The first key of an object is to come, or its end. -/
  | firstKey (frames : List Frame)
  /-- A further key is to come. -/
  | nextKey (before : List (Value × Value)) (frames : List Frame)
  | colon (before : List (Value × Value)) (key : Value) (frames : List Frame)
  /-- An item is complete. -/
  | afterItem (before : List Value) (frames : List Frame)
  /-- A member is complete. -/
  | afterMember (before : List (Value × Value)) (frames : List Frame)
  | complete (document : Document)

namespace Assembly

/-- Puts a complete value in its place. -/
def supply (v : Value) : List Frame → Assembly
  | [] => .complete ⟨v, false⟩
  | .item before :: frames => .afterItem (v :: before) frames
  | .member before key :: frames => .afterMember ((key, v) :: before) frames

/-- Breaks everything off after a value with a fault. -/
def breakOff (v : Value) : List Frame → Value
  | [] => v
  | .item before :: frames =>
    breakOff (.sequence (v :: before).reverse (.brokenOff .malformed)) frames
  | .member before key :: frames =>
    breakOff (.object ((key, v) :: before).reverse (.brokenOff .malformed)) frames

/-- The document that a value with a fault makes. -/
def failed (v : Value) (frames : List Frame) : Assembly := .complete ⟨breakOff v frames, false⟩

/-- A token where a value is to come. -/
def takeValue (frames : List Frame) : Token → Assembly
  | .word w fault => supply (.word w fault) frames
  | .number n => supply (.number n) frames
  | .text q => supply (.text q) frames
  | .mark .openBracket => .firstItem frames
  | .mark .openBrace => .firstKey frames
  | .mark _ => failed (.broken .malformed) frames
  | .stray => failed (.broken .malformed) frames

/-- What stands in the place of a key if it is no text. -/
def wrongKey : Token → Value
  | .word w fault => .word w fault
  | .number n => .number n
  | .text q => .text q
  | .mark .openBracket => .sequence [] (.brokenOff .malformed)
  | .mark .openBrace => .object [] (.brokenOff .malformed)
  | .mark _ => .broken .malformed
  | .stray => .broken .malformed

/-- A token where a key is to come. -/
def takeKey (before : List (Value × Value)) (frames : List Frame) : Token → Assembly
  | .text q => .colon before (.text q) frames
  | token => failed (.broken .malformed) (.member before (wrongKey token) :: frames)

/-- The next token. -/
def advance : Assembly → Token → Assembly
  | .value frames, token => takeValue frames token
  | .firstItem frames, token =>
    match token with
    | .mark .closeBracket => supply (.sequence [] .closed) frames
    | token => takeValue (.item [] :: frames) token
  | .firstKey frames, token =>
    match token with
    | .mark .closeBrace => supply (.object [] .closed) frames
    | token => takeKey [] frames token
  | .nextKey before frames, token => takeKey before frames token
  | .colon before key frames, token =>
    match token with
    | .mark .colon => .value (.member before key :: frames)
    | _ => failed (.broken .malformed) (.member before key :: frames)
  | .afterItem before frames, token =>
    match token with
    | .mark .comma => .value (.item before :: frames)
    | .mark .closeBracket => supply (.sequence before.reverse .closed) frames
    | _ => failed (.sequence before.reverse (.brokenOff .malformed)) frames
  | .afterMember before frames, token =>
    match token with
    | .mark .comma => .nextKey before frames
    | .mark .closeBrace => supply (.object before.reverse .closed) frames
    | _ => failed (.object before.reverse (.brokenOff .malformed)) frames
  | .complete document, _ => .complete { document with trailing := true }

/-- The end of the tokens. -/
def finish : Assembly → Document
  | .value frames => ⟨breakOff (.broken .cutShort) frames, false⟩
  | .firstItem frames => ⟨breakOff (.sequence [] (.brokenOff .cutShort)) frames, false⟩
  | .firstKey frames => ⟨breakOff (.object [] (.brokenOff .cutShort)) frames, false⟩
  | .nextKey before frames =>
    ⟨breakOff (.broken .cutShort) (.member before (.broken .cutShort) :: frames), false⟩
  | .colon before key frames =>
    ⟨breakOff (.broken .cutShort) (.member before key :: frames), false⟩
  | .afterItem before frames =>
    ⟨breakOff (.sequence before.reverse (.brokenOff .cutShort)) frames, false⟩
  | .afterMember before frames =>
    ⟨breakOff (.object before.reverse (.brokenOff .cutShort)) frames, false⟩
  | .complete document => document

end Assembly

/-- The document that tokens make. -/
def Document.ofTokens (tokens : List Token) : Document :=
  (tokens.foldl Assembly.advance (.value [])).finish

/-- The document that a text makes. -/
def Document.ofChars (text : List Char) : Document := .ofTokens (tokens text)

/-! ## Values that are passed over

A value that nobody wants still has to be well formed, but only in its outer form: the units of a
text need not make up characters, and a number may be of any size.
-/

/-- The fault of an optional fault. -/
def demand : Option Fault → Except Fault Unit
  | none => .ok ()
  | some fault => .error fault

/-- Is the numeral well formed? -/
def Numeral.wellFormed (n : Numeral) : Bool :=
  n.digits ≠ [] && (n.digits.head? ≠ some '0' || n.digits.length = 1) && n.fraction ≠ some []
    && (n.exponent.map (·.digits)) ≠ some []

namespace Value

mutual

/-- Passes over a value. -/
def skip : Value → Except Fault Unit
  | .word _ fault => demand fault
  | .number n => if n.wellFormed then .ok () else .error .malformed
  | .text q => demand q.fault
  | .sequence items closing => do
    skipItems items
    match closing with
    | .closed => .ok ()
    | .brokenOff fault => .error fault
  | .object members closing => do
    skipMembers members
    match closing with
    | .closed => .ok ()
    | .brokenOff fault => .error fault
  | .broken fault => .error fault

/-- Passes over the items of a sequence. -/
def skipItems : List Value → Except Fault Unit
  | [] => .ok ()
  | item :: rest => do
    skip item
    skipItems rest

/-- Passes over the members of an object. -/
def skipMembers : List (Value × Value) → Except Fault Unit
  | [] => .ok ()
  | (key, item) :: rest => do
    match key with
    | .text q => demand q.fault
    | .broken fault => .error fault
    | _ => .error .malformed
    skip item
    skipMembers rest

end

end Value

/-! ## Spelling -/

/-- The escape of a control character: a short one if there is one. -/
def escapeControl (n : Nat) : List Char :=
  match n with
  | 8 => ['\\', 'b']
  | 9 => ['\\', 't']
  | 10 => ['\\', 'n']
  | 12 => ['\\', 'f']
  | 13 => ['\\', 'r']
  | n => '\\' :: 'u' :: '0' :: '0' :: Text.hexByte (UInt8.ofNat n)

/-- A character between quotation marks. Only what has to be escaped is. -/
def spellChar (c : Char) : List Char :=
  if c = quote then ['\\', quote]
  else if c = '\\' then ['\\', '\\']
  else if c.toNat < 32 then escapeControl c.toNat
  else [c]

/-- A text between quotation marks. -/
def spellText (text : List Char) : List Char := quote :: text.flatMap spellChar ++ [quote]

/-- The quotation of a text. -/
def Quotation.ofChars (text : List Char) : Quotation := ⟨text.map .char, none⟩

/-- The numeral of a whole number. -/
def Numeral.ofInt (x : Int) : Numeral :=
  ⟨x < 0, (toString x.natAbs).toList, none, none, false⟩

/-- The spelling of a whole number. -/
def Numeral.spell (n : Numeral) : List Char :=
  (if n.negative then ['-'] else []) ++ n.digits

/-- A word as a value. -/
def Value.ofWord (w : Word) : Value := .word w none

/-- A truth value. -/
def Value.ofBool (b : Bool) : Value := .ofWord (if b then .yes else .no)

/-- A text as a value. -/
def Value.ofString (s : String) : Value := .text (.ofChars s.toList)

/-- A whole number as a value. -/
def Value.ofInt (x : Int) : Value := .number (.ofInt x)

/-- A sequence with its end. -/
def Value.ofList (items : List Value) : Value := .sequence items .closed

/-- An object with its end. -/
def Value.ofFields (fields : List (String × Value)) : Value :=
  .object (fields.map fun (name, v) => (.ofString name, v)) .closed

/-- The character that a part of a plain text is. -/
def TextPart.char? : TextPart → Option Char
  | .char c => some c
  | .unit _ => none

namespace Value

mutual

/-- The compact spelling of a value without faults, with whole numbers and plain texts only. -/
def spell : Value → List Char
  | .word w _ => w.spelling
  | .number n => n.spell
  | .text q => spellText (q.parts.filterMap TextPart.char?)
  | .sequence items _ => '[' :: spellItems items ++ [']']
  | .object members _ => '\x7b' :: spellMembers members ++ ['\x7d']
  | .broken _ => []

/-- Items with commas between them. -/
def spellItems : List Value → List Char
  | [] => []
  | [item] => spell item
  | item :: rest => spell item ++ ',' :: spellItems rest

/-- Members with commas between them. -/
def spellMembers : List (Value × Value) → List Char
  | [] => []
  | [(key, item)] => spell key ++ ':' :: spell item
  | (key, item) :: rest => spell key ++ ':' :: spell item ++ ',' :: spellMembers rest

end

end Value

end Postmortem.Json
