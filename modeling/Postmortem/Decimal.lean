import Postmortem.Bytes

/-! # Decimal numbers

The decimal text of a number, its width, and writing it into cells that are there already: digit by
digit from the ones' column backwards, so that nothing but the cells of the number is touched.
-/

namespace Postmortem

/-- A buffer of fixed size is too small for what was to be written. -/
structure OutOfSpace where
  deriving Repr, DecidableEq

/-- The wording of the failure. -/
def OutOfSpace.message : String := "fixed-size buffer is too small"

namespace Decimal

/-- The last digit of a number, as ASCII. -/
def lastDigit (n : Nat) : UInt8 := UInt8.ofNat (48 + n % 10)

/-- How many digits a number has; zero has one. -/
def digitCount (n : Nat) : Nat :=
  if n < 10 then 1 else digitCount (n / 10) + 1

/-- A power of ten. -/
def tenTo : Nat → Nat
  | 0 => 1
  | n + 1 => tenTo n * 10

/-- A number is less than ten to the power of its digits. -/
theorem lt_tenTo_digitCount (n : Nat) : n < tenTo (digitCount n) := by
  induction n using digitCount.induct with
  | case1 n h =>
    rw [digitCount, if_pos h]
    simp only [tenTo]
    omega
  | case2 n h ih =>
    rw [digitCount, if_neg h, tenTo]
    omega

/-- A greater power of ten is greater. -/
theorem tenTo_le_tenTo {m n : Nat} (h : m ≤ n) : tenTo m ≤ tenTo n := by
  induction h with
  | refl => exact Nat.le_refl _
  | step _ ih =>
    simp only [tenTo]
    omega

/-- The digits of a number, without leading zeros. -/
def ofNat (n : Nat) : Bytes :=
  if n < 10 then [lastDigit n] else ofNat (n / 10) ++ [lastDigit n]

/-- How many characters a number takes, sign included. -/
def width (x : Int) : Nat :=
  digitCount x.natAbs + if x < 0 then 1 else 0

/-- The decimal text of a number. -/
def ofInt (x : Int) : Bytes :=
  if x < 0 then Bytes.dash :: ofNat x.natAbs else ofNat x.natAbs

/-- Writes the digits of a number into the `room` cells from `floor` on, the last digit into the
    last of them. `none` if a digit would fall below `floor`. -/
def putDigits (floor : Nat) : (room : Nat) → Nat → Bytes → Option Bytes
  | 0, _, _ => none
  | room + 1, n, cells =>
    let written := cells.set (floor + room) (lastDigit n)
    if n < 10 then some written else putDigits floor room (n / 10) written

/-- Writes a number to the start of `cells` and tells how many of them it took. -/
def put (cells : Bytes) (x : Int) : Except OutOfSpace (Nat × Bytes) :=
  let size := width x
  if cells.length < size then .error ⟨⟩
  else
    let floor := if x < 0 then 1 else 0
    let signed := if x < 0 then cells.set 0 Bytes.dash else cells
    match putDigits floor (size - floor) x.natAbs signed with
    | some written => .ok (size, written)
    | none => .error ⟨⟩

/-- The number that a run of digits denotes. -/
def value (digits : Bytes) : Nat :=
  digits.foldl (fun n b => n * 10 + (b.toNat - 48)) 0

end Decimal

/-- Copies `source` to the start of `cells` and tells how many bytes that were. -/
def copyInto (cells source : Bytes) : Except OutOfSpace (Nat × Bytes) :=
  if cells.length < source.length then .error ⟨⟩
  else .ok (source.length, source ++ cells.drop source.length)

end Postmortem
