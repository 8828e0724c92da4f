import Postmortem.Bytes.Utf8
import Postmortem.Text.Printable

/-! # Quoted text

Messages show foreign text in double quotes with everything escaped that a terminal would not show
faithfully. Three kinds of text are quoted, with slightly different rules: texts, paths (which need
not be valid UTF-8) and C strings (which need not either, have the apostrophe escaped too, and whose
control characters are written by their two hexadecimal digits).
-/

namespace Postmortem.Text

/-- A hexadecimal digit, lower case. -/
def hexDigit (n : Nat) : Char :=
  if n < 10 then Char.ofNat (48 + n) else Char.ofNat (87 + n)

/-- A number in hexadecimal, lower case, without leading zeros. -/
def hexText (n : Nat) : List Char :=
  if n < 16 then [hexDigit n] else hexText (n / 16) ++ [hexDigit (n % 16)]

/-- Two hexadecimal digits, lower case. -/
def hexByte (b : UInt8) : List Char :=
  [hexDigit (b.toNat / 16), hexDigit (b.toNat % 16)]

/-- A backslash followed by `c`. -/
def escaped (c : Char) : List Char := ['\\', c]

/-- The apostrophe. -/
def apostrophe : Char := Char.ofNat 39

/-- How a character appears between quotes: as itself if it is printable and stands on its own, and
    otherwise as an escape. -/
def escapeChar (c : Char) : List Char :=
  match c with
  | '\x00' => escaped '0'
  | '\t' => escaped 't'
  | '\r' => escaped 'r'
  | '\n' => escaped 'n'
  | '\\' => escaped '\\'
  | '\"' => escaped '\"'
  | c =>
    if isExtender c || !isPrintable c then
      escaped 'u' ++ ['\x7b'] ++ hexText c.toNat ++ ['\x7d']
    else [c]

/-- The characters between double quotes. -/
def inQuotes (chars : List Char) : List Char := '\"' :: chars ++ ['\"']

/-- A text in quotes. -/
def quotedChars (text : List Char) : List Char :=
  inQuotes (text.flatMap escapeChar)

/-- A text in quotes. -/
def quoted (text : String) : String := String.ofList (quotedChars text.toList)

/-- A path in quotes; bytes that are no character appear as `\xNN`, in upper case. -/
def quotedPath (path : Bytes) : List Char :=
  inQuotes <| (Utf8.pieces path).flatMap fun
    | .char c => escapeChar c
    | .broken bytes => bytes.flatMap fun b => escaped 'x' ++ (hexByte b).map Char.toUpper

/-- An ASCII character of a C string; NUL cannot occur in one. -/
def escapeAscii (c : Char) : List Char :=
  match c with
  | '\t' => escaped 't'
  | '\r' => escaped 'r'
  | '\n' => escaped 'n'
  | '\\' => escaped '\\'
  | '\"' => escaped '\"'
  | c =>
    if c = apostrophe then escaped c
    else if 0x20 ≤ c.toNat && c.toNat < 0x7F then [c]
    else escaped 'x' ++ hexByte (UInt8.ofNat c.toNat)

/-- A C string in quotes; bytes that are no character appear as `\xnn`, in lower case. -/
def quotedCString (s : Bytes) : List Char :=
  inQuotes <| (Utf8.pieces s).flatMap fun
    | .char c => if c.toNat < 0x80 then escapeAscii c else escapeChar c
    | .broken bytes => bytes.flatMap fun b => escaped 'x' ++ hexByte b

/-- A list of items, separated by commas, in square brackets. -/
def bracketed (items : List (List Char)) : List Char :=
  '[' :: List.intercalate [',', ' '] items ++ [']']

end Postmortem.Text
