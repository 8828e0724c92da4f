import Postmortem.Bytes.Utf8
import Postmortem.CString
import Postmortem.Decimal
import Postmortem.Text.Quoted

/-! # Buffers of fixed size

A buffer has a fixed number of cells. Its content fills the first of them, a NUL follows, and the
rest holds whatever was written there before. Every operation either does all it was asked for or
leaves the buffer as it was.
-/

namespace Postmortem

/-- A string builder with `capacity` cells, of which the content fills the first `size`. -/
structure FixedBuffer (capacity : Nat) where
  cells : Bytes
  size : Nat
  deriving Repr, DecidableEq

/-- Why a push failed: the content would not fit, or a cell that is not there was addressed. -/
inductive PushError where
  | outOfSpace
  | outOfBounds (index length : Nat)
  deriving Repr, DecidableEq

/-- The wording of the failure. -/
def PushError.message : PushError → String
  | .outOfSpace => OutOfSpace.message
  | .outOfBounds index length =>
    "index out of bounds: the len is " ++ toString length ++ " but the index is " ++ toString index

namespace FixedBuffer

variable {capacity : Nat}

/-- The empty buffer. -/
def empty (capacity : Nat) : FixedBuffer capacity :=
  ⟨List.replicate capacity 0, 0⟩

/-- The bytes pushed so far. -/
def content (b : FixedBuffer capacity) : Bytes := b.cells.take b.size

/-- Is nothing in the buffer? -/
def isEmpty (b : FixedBuffer capacity) : Bool := b.size = 0

/-- How many bytes can still be pushed; one cell is kept for the NUL. -/
def remaining (b : FixedBuffer capacity) : Nat := capacity - (b.size + 1)

/-- Puts a NUL after the first `size` cells and takes those for the content. -/
def terminate (cells : Bytes) (size : Nat) : Except PushError (FixedBuffer capacity) :=
  if size < cells.length then .ok ⟨cells.set size 0, size⟩
  else .error (.outOfBounds size cells.length)

/-- Replaces the cells from `start` on by `bytes`. -/
def overwrite (cells : Bytes) (start : Nat) (bytes : Bytes) : Bytes :=
  cells.take start ++ bytes ++ cells.drop (start + bytes.length)

/-- Appends bytes. -/
def push (b : FixedBuffer capacity) (bytes : Bytes) : Except PushError (FixedBuffer capacity) :=
  if b.remaining < bytes.length then .error .outOfSpace
  else terminate (overwrite b.cells b.size bytes) (b.size + bytes.length)

/-- Appends the decimal text of a number, which is written straight into the cells. -/
def pushNumber (b : FixedBuffer capacity) (x : Int) : Except PushError (FixedBuffer capacity) :=
  if b.remaining < Decimal.width x then .error .outOfSpace
  else
    match Decimal.put (b.cells.drop b.size) x with
    | .ok (written, cells) => terminate (b.cells.take b.size ++ cells) (b.size + written)
    | .error _ => .error .outOfSpace

/-- Shortens the content to `size` bytes; a content that is no longer than that stays. -/
def truncate (b : FixedBuffer capacity) (size : Nat) : FixedBuffer capacity :=
  if size < b.size then ⟨b.cells.set size 0, size⟩ else b

/-- Empties the buffer. -/
def clear (b : FixedBuffer capacity) : FixedBuffer capacity := b.truncate 0

/-- Appends the fragments of a formatted text up to the first that does not fit. What went before
    stays; the error is that of the fragment. -/
def write (b : FixedBuffer capacity) : List Bytes → FixedBuffer capacity × Except PushError Unit
  | [] => (b, .ok ())
  | fragment :: rest =>
    match b.push fragment with
    | .ok b => b.write rest
    | .error e => (b, .error e)

/-- The cells up to the first NUL, as C sees them; a buffer without cells shows nothing. -/
def asCString (b : FixedBuffer capacity) : CString :=
  if (0 : UInt8) ∈ b.cells then .untilNul b.cells else .text ""

/-- Capacity and content in the words of a log. -/
def describe (b : FixedBuffer capacity) : List Char :=
  "FixedBuf \x7b capacity: ".toList ++ (toString capacity).toList ++ ", content: ".toList
    ++ Text.quotedChars (Utf8.decodeLossy b.content) ++ " \x7d".toList

end FixedBuffer

/-- The size of a buffer that takes any 64-bit number: its digits, a sign, a NUL and a spare. -/
def numericBufferSize : Nat := 22

/-- The decimal text of a number, built in a buffer that takes any 64-bit number. -/
def numberText (x : Int) : CString :=
  match (FixedBuffer.empty numericBufferSize).pushNumber x with
  | .ok b => b.asCString
  | .error _ => .text ""

end Postmortem
