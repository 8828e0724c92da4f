/-! # Byte strings

Everything that leaves or enters the process is a string of bytes: file names, arguments, the text
on the error stream, the content of files. This module fixes the type and the few operations on it
that the rest of the library shares: encoding of texts, search, and cutting into lines.
-/

namespace Postmortem

/-- A string of bytes of any length, NUL included. -/
abbrev Bytes := List UInt8

/-- The UTF-8 encoding of a text. -/
def utf8 (text : String) : Bytes :=
  text.toList.flatMap String.utf8EncodeChar

/-- The encoding of a text given as characters. -/
def utf8Chars (chars : List Char) : Bytes :=
  chars.flatMap String.utf8EncodeChar

namespace Bytes

/-- The line feed, which ends a line. -/
def newline : UInt8 := 10

/-- The path separator. -/
def slash : UInt8 := 47

/-- The minus sign, of which banners are drawn. -/
def dash : UInt8 := 45

/-- An ASCII digit. -/
def isDigit (b : UInt8) : Bool := 48 ≤ b && b ≤ 57

/-- ASCII white space: space, tab, line feed, form feed and carriage return. -/
def isBlank (b : UInt8) : Bool :=
  b == 32 || b == 9 || b == 10 || b == 12 || b == 13

/-- The string without the white space at either end. -/
def trim (s : Bytes) : Bytes :=
  ((s.dropWhile isBlank).reverse.dropWhile isBlank).reverse

/-- Does `part` occur in the string as an uninterrupted run? -/
def occursIn (part : Bytes) : Bytes → Bool
  | [] => part.isEmpty
  | b :: rest => part.isPrefixOf (b :: rest) || occursIn part rest

/-- Does the string end in `tail`? -/
def endsWith (s tail : Bytes) : Bool := tail.isSuffixOf s

/-- The part before the first occurrence of `mark`, or all of the string. -/
def upTo (mark : Bytes) : Bytes → Bytes
  | [] => []
  | b :: rest => if mark.isPrefixOf (b :: rest) then [] else b :: upTo mark rest

/-- The parts before and after the first byte `mark`. -/
def splitOnce (mark : UInt8) : Bytes → Option (Bytes × Bytes)
  | [] => none
  | b :: rest =>
    if b = mark then some ([], rest)
    else (splitOnce mark rest).map fun (before, after) => (b :: before, after)

/-- The pieces between the bytes `mark`: one more than there are marks. -/
def pieces (mark : UInt8) : Bytes → List Bytes
  | [] => [[]]
  | b :: rest =>
    if b = mark then [] :: pieces mark rest
    else
      match pieces mark rest with
      | [] => [[b]]
      | piece :: more => (b :: piece) :: more

/-- A line without the carriage return that may stand before its line feed. -/
def dropReturn (line : Bytes) : Bytes :=
  if line.getLast? = some 13 then line.dropLast else line

/-- The lines among the pieces of a text: a piece that a line feed ends loses a carriage return
    before it, and the unended last piece counts only if it is not empty. -/
def ofPieces : List Bytes → List Bytes
  | [] => []
  | [last] => if last.isEmpty then [] else [last]
  | piece :: more => dropReturn piece :: ofPieces more

/-- The lines of a text, without their ends. -/
def lines (s : Bytes) : List Bytes := ofPieces (pieces newline s)

/-- Lexicographic order of byte strings. -/
def precedes : Bytes → Bytes → Bool
  | _, [] => false
  | [], _ :: _ => true
  | a :: as, b :: bs => a < b || (a == b && precedes as bs)

/-- The part of a path after the last separator, or the whole path if that part is empty. -/
def baseName (path : Bytes) : Bytes :=
  let tail := (path.reverse.takeWhile (· ≠ slash)).reverse
  if tail.isEmpty then path else tail

end Bytes

end Postmortem
