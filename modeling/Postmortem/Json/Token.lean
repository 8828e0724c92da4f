/-! # Tokens of JSON

A text is cut into tokens by one pass over its characters. Nothing is refused here: a token that is
not well formed says in itself what is wrong with it, so that whoever reads the tokens meets the
faults of a text in the order in which they occur, and never one that it has no reason to look at.
-/

namespace Postmortem.Json

/-- What is wrong with the form of a text: it ends too early, or is malformed in some other way. -/
inductive Fault where
  | cutShort
  | malformed
  deriving Repr, DecidableEq

/-- The three words. -/
inductive Word where
  | null
  | yes
  | no
  deriving Repr, DecidableEq

/-- The spelling of a word. -/
def Word.spelling : Word → List Char
  | .null => ['n', 'u', 'l', 'l']
  | .yes => ['t', 'r', 'u', 'e']
  | .no => ['f', 'a', 'l', 's', 'e']

/-- A part of a quoted text: a character, whether written as itself or by a short escape, or a
    sixteen-bit unit written in hexadecimal. -/
inductive TextPart where
  | char (c : Char)
  | unit (n : Nat)
  deriving Repr, DecidableEq

/-- A quoted text, as far as it is well formed. -/
structure Quotation where
  parts : List TextPart
  fault : Option Fault
  deriving Repr, DecidableEq

/-- The exponent of a numeral, as written. -/
structure Exponent where
  sign : Option Char
  digits : List Char
  deriving Repr, DecidableEq

/-- A numeral, as written. A list of digits that should not be empty may be; `atEnd` says that
    nothing follows the numeral. -/
structure Numeral where
  negative : Bool
  digits : List Char
  fraction : Option (List Char)
  exponent : Option Exponent
  atEnd : Bool
  deriving Repr, DecidableEq

/-- The marks between values. -/
inductive Mark where
  | openBracket
  | closeBracket
  | openBrace
  | closeBrace
  | comma
  | colon
  deriving Repr, DecidableEq

/-- A token. -/
inductive Token where
  | mark (m : Mark)
  | word (w : Word) (fault : Option Fault)
  | number (n : Numeral)
  | text (q : Quotation)
  /-- A character that begins no token. -/
  | stray
  deriving Repr, DecidableEq

/-- The value of a hexadecimal digit. -/
def hexValue? (c : Char) : Option Nat :=
  if '0' ≤ c ∧ c ≤ '9' then some (c.toNat - 48)
  else if 'a' ≤ c ∧ c ≤ 'f' then some (c.toNat - 87)
  else if 'A' ≤ c ∧ c ≤ 'F' then some (c.toNat - 55)
  else none

/-- White space between tokens. -/
def isSpace (c : Char) : Bool := c = ' ' || c = '\n' || c = '\t' || c = '\r'

/-- Is the character a digit? -/
def isDigit (c : Char) : Bool := '0' ≤ c && c ≤ '9'

/-- The quotation mark. -/
def quote : Char := '\"'

/-- The character that a short escape stands for. -/
def shortEscape? (c : Char) : Option Char :=
  match c with
  | '\"' => some '\"'
  | '\\' => some '\\'
  | '/' => some '/'
  | 'b' => some (Char.ofNat 8)
  | 'f' => some (Char.ofNat 12)
  | 'n' => some '\n'
  | 'r' => some '\r'
  | 't' => some '\t'
  | _ => none

namespace Numeral

/-- The numeral that begins with this character, if one does. -/
def begin? (c : Char) : Option Numeral :=
  if c = '-' then some ⟨true, [], none, none, false⟩
  else if isDigit c then some ⟨false, [c], none, none, false⟩
  else none

/-- The numeral with one more character, if that belongs to it. -/
def extend? (n : Numeral) (c : Char) : Option Numeral :=
  match n.exponent, n.fraction with
  | some e, _ =>
    if isDigit c then some { n with exponent := some { e with digits := e.digits ++ [c] } }
    else if (c = '+' ∨ c = '-') ∧ e.sign = none ∧ e.digits = [] then
      some { n with exponent := some { e with sign := some c } }
    else none
  | none, some places =>
    if isDigit c then some { n with fraction := some (places ++ [c]) }
    else if (c = 'e' ∨ c = 'E') ∧ places ≠ [] then some { n with exponent := some ⟨none, []⟩ }
    else none
  | none, none =>
    if isDigit c then some { n with digits := n.digits ++ [c] }
    else if n.digits = [] then none
    else if c = '.' then some { n with fraction := some [] }
    else if c = 'e' ∨ c = 'E' then some { n with exponent := some ⟨none, []⟩ }
    else none

end Numeral

/-- Where the pass is within a quoted text. -/
inductive InText where
  | plain
  /-- After a backslash. -/
  | escape
  /-- Within the four hexadecimal digits of a unit: how many bytes have been seen, their value, and
      whether all of them were digits. A unit is only looked at when four bytes are there. -/
  | unit (seen : Nat) (value : Nat) (sound : Bool)
  deriving Repr, DecidableEq

/-- Where the pass is. -/
inductive Scanner where
  | between
  /-- Within a word, with these characters to come. -/
  | word (w : Word) (rest : List Char)
  | number (n : Numeral)
  /-- Within a quoted text, with the parts read so far, the last one first. -/
  | text (parts : List TextPart) (place : InText)
  /-- After a fault. -/
  | stopped
  deriving Repr, DecidableEq

namespace Scanner

/-- The mark that a character is. -/
def mark? (c : Char) : Option Mark :=
  match c with
  | '[' => some .openBracket
  | ']' => some .closeBracket
  | '\x7b' => some .openBrace
  | '\x7d' => some .closeBrace
  | ',' => some .comma
  | ':' => some .colon
  | _ => none

/-- The word that begins with a character, if one does. -/
def word? (c : Char) : Option Word :=
  match c with
  | 'n' => some .null
  | 't' => some .yes
  | 'f' => some .no
  | _ => none

/-- The character between two tokens, or the first of one. -/
def begin (c : Char) : List Token × Scanner :=
  if isSpace c then ([], .between)
  else if c = quote then ([], .text [] .plain)
  else
    match mark? c, word? c, Numeral.begin? c with
    | some m, _, _ => ([.mark m], .between)
    | none, some w, _ => ([], .word w (w.spelling.drop 1))
    | none, none, some n => ([], .number n)
    | none, none, none => ([.stray], .stopped)

/-- The token of a quoted text. -/
def quotation (parts : List TextPart) (fault : Option Fault) : Token := .text ⟨parts.reverse, fault⟩

/-- The next character of a quoted text. -/
def advanceText (parts : List TextPart) (place : InText) (c : Char) : List Token × Scanner :=
  match place with
  | .plain =>
    if c = quote then ([quotation parts none], .between)
    else if c = '\\' then ([], .text parts .escape)
    else if c.toNat < 32 then ([quotation parts (some .malformed)], .stopped)
    else ([], .text (.char c :: parts) .plain)
  | .escape =>
    match shortEscape? c with
    | some d => ([], .text (.char d :: parts) .plain)
    | none =>
      if c = 'u' then ([], .text parts (.unit 0 0 true))
      else ([quotation parts (some .malformed)], .stopped)
  | .unit seen value sound =>
    let seen := seen + c.utf8Size
    let (value, sound) :=
      match hexValue? c with
      | some digit => (value * 16 + digit, sound)
      | none => (value, false)
    if seen < 4 then ([], .text parts (.unit seen value sound))
    else if sound then ([], .text (.unit value :: parts) .plain)
    else ([quotation parts (some .malformed)], .stopped)

/-- The next character of the text. -/
def advance (scanner : Scanner) (c : Char) : List Token × Scanner :=
  match scanner with
  | .between => begin c
  | .word w rest =>
    match rest with
    | expected :: rest =>
      if c ≠ expected then ([.word w (some .malformed)], .stopped)
      else if rest.isEmpty then ([.word w none], .between)
      else ([], .word w rest)
    | [] => ([.word w none], .between)
  | .number n =>
    match n.extend? c with
    | some n => ([], .number n)
    | none =>
      let (tokens, scanner) := begin c
      (.number n :: tokens, scanner)
  | .text parts place => advanceText parts place c
  | .stopped => ([], .stopped)

/-- The end of the text. -/
def finish : Scanner → List Token
  | .between => []
  | .word w _ => [.word w (some .cutShort)]
  | .number n => [.number { n with atEnd := true }]
  | .text parts _ => [quotation parts (some .cutShort)]
  | .stopped => []

/-- The tokens of a text from here on. -/
def scan (scanner : Scanner) : List Char → List Token
  | [] => scanner.finish
  | c :: rest =>
    let (tokens, scanner) := scanner.advance c
    tokens ++ scan scanner rest

end Scanner

/-- The tokens of a text. -/
def tokens (text : List Char) : List Token := Scanner.between.scan text

end Postmortem.Json
