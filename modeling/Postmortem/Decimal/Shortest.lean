import Postmortem.Decimal

/-! # The fewest digits that identify a number

A binary floating-point number stands for all reals that round to it. Its decimal text is the
shortest decimal among these, and of several the one nearest to the number itself. The search is
made in whole numbers: one after another the decimal grids of one, two, … seventeen digits are tried,
and on each the two neighbours of the number.
-/

namespace Postmortem.Decimal

/-- A decimal: the digits as a whole number, times a power of ten. -/
structure Scientific where
  digits : Nat
  exponent : Int
  deriving Repr, DecidableEq

/-- A positive binary number: `mantissa` times `2 ^ exponent`. `atPower` says that the next smaller
    number is half as far away as the next larger one. -/
structure Binary where
  mantissa : Nat
  exponent : Int
  atPower : Bool
  deriving Repr, DecidableEq

namespace Binary

/-- The leading bit of a mantissa, which a pattern leaves out: two to the power of 52. -/
def leadingBit : Nat := 0x10000000000000

/-- The absolute value of the number with this 64-bit pattern. -/
def ofBits (bits : UInt64) : Binary :=
  let fraction : Nat := bits.toNat % leadingBit
  let biased : Nat := bits.toNat / leadingBit % 2048
  if biased = 0 then ⟨fraction, -1074, false⟩
  else ⟨fraction + leadingBit, (biased : Int) - 1075, fraction = 0 && 1 < biased⟩

/-- The factor that makes quarters of the last place of the number whole. -/
def scaleUp (x : Binary) : Nat := Nat.pow 2 (x.exponent - 2).toNat

/-- The denominator that goes with `scaleUp`. -/
def scaleDown (x : Binary) : Nat := Nat.pow 2 (2 - x.exponent).toNat

/-- The number, the least and the greatest real that round to it, in quarters of its last place. -/
def value (x : Binary) : Nat := 4 * x.mantissa
def low (x : Binary) : Nat := 4 * x.mantissa - if x.atPower then 1 else 2
def high (x : Binary) : Nat := 4 * x.mantissa + 2

/-- Does the fraction `p / q` round to the number? The ends of the interval do if the number is
    even. -/
def readsBack (x : Binary) (p q : Nat) : Bool :=
  let point := p * x.scaleDown
  let low := x.low * x.scaleUp * q
  let high := x.high * x.scaleUp * q
  if x.mantissa % 2 = 0 then low ≤ point && point ≤ high else low < point && point < high

/-- The power of ten of the first digit of the fraction `p / q`, which is not zero. -/
def leadingPower (p q : Nat) : Int :=
  if q ≤ p then (digitCount (p / q) : Int) - 1
  else
    let below := digitCount (q / p)
    if q ≤ p * tenTo (below - 1) then -((below : Int) - 1) else -(below : Int)

/-- The best of the two neighbours of the number on the grid of the multiples of `10 ^ power`, if
    one of them reads back. Of two at the same distance the even one is taken. -/
def onGrid (x : Binary) (power : Int) : Option Scientific :=
  let up := tenTo power.toNat
  let down := tenTo (-power).toNat
  let p := x.value * x.scaleUp * down
  let q := x.scaleDown * up
  let below := p / q
  let hits := fun n => x.readsBack (n * up) down
  let twice := 2 * (p % q)
  if hits below && hits (below + 1) then
    let lower := twice < q || (twice = q && below % 2 = 0)
    some ⟨if lower then below else below + 1, power⟩
  else if hits below then some ⟨below, power⟩
  else if hits (below + 1) then some ⟨below + 1, power⟩
  else none

/-- The digits without zeros at the end. -/
def strip : (steps : Nat) → Scientific → Scientific
  | 0, d => d
  | steps + 1, d =>
    if d.digits % 10 = 0 && d.digits ≠ 0 then strip steps ⟨d.digits / 10, d.exponent + 1⟩ else d

/-- Seventeen digits identify every number. -/
def maxDigits : Nat := 17

/-- The shortest decimal that identifies the number; zero for zero. -/
def shortest (x : Binary) : Scientific :=
  if x.mantissa = 0 then ⟨0, 0⟩
  else
    let leading := leadingPower (x.value * x.scaleUp) x.scaleDown
    let found := (List.range maxDigits).findSome? fun (n : Nat) => onGrid x (leading - (n : Int))
    strip (maxDigits + 1) (found.getD ⟨0, 0⟩)

end Binary

end Postmortem.Decimal
