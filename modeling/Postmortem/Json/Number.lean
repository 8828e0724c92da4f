import Postmortem.Decimal.Shortest
import Postmortem.Json.Value

/-! # Numbers of JSON

A numeral denotes a whole number if it is written without point and exponent and fits 64 bits, and
otherwise a floating-point number. The latter is computed from at most 64 bits of digits and a power
of ten by one multiplication or division, which is quick and not always the nearest number.
-/

namespace Postmortem.Json

/-- A number. -/
inductive Number where
  | whole (x : Int)
  | floating (x : Float)

/-- The largest whole number. -/
def maxWhole : Nat := UInt64.size - 1

/-- The least whole number. -/
def minWhole : Int := Int64.minValue.toInt

/-- The largest exponent that is read. -/
def maxExponent : Nat := UInt32.size / 2 - 1

/-- The largest power of ten among the floating-point numbers. -/
def maxPower : Nat := 308

/-- A power of ten. -/
def powerOfTen (n : Nat) : Float := Float.ofScientific 1 false n

namespace Numeral

/-- The number that a digit stands for. -/
def digitValue (c : Char) : Nat := c.toNat - 48

/-- Digits read as long as the number fits 64 bits, and the digits left over. -/
def accumulate : (significand : Nat) → List Char → Nat × List Char
  | significand, [] => (significand, [])
  | significand, c :: rest =>
    let next := significand * 10 + digitValue c
    if maxWhole < next then (significand, c :: rest) else accumulate next rest

/-- A number with its sign. -/
def signed (n : Numeral) (x : Float) : Float := if n.negative then -x else x

/-- Multiplies by a power of ten, in steps where it is too small a power; a number that is too
    large is no number. -/
def scale : (steps : Nat) → Float → Int → Except Fault Float
  | 0, x, _ => .ok x
  | steps + 1, x, exponent =>
    if exponent.natAbs ≤ maxPower then
      if 0 ≤ exponent then
        let y := x * powerOfTen exponent.natAbs
        if y.isInf then .error .malformed else .ok y
      else .ok (x / powerOfTen exponent.natAbs)
    else if x == 0.0 then .ok x
    else if 0 ≤ exponent then .error .malformed
    else scale steps (x / powerOfTen maxPower) (exponent + maxPower)

/-- After this many divisions nothing is left of any number. -/
def scaleSteps : Nat := 8

/-- The floating-point number with a significand and a power of ten. -/
def floating (n : Numeral) (significand : Nat) (exponent : Int) : Except Fault Number :=
  (scale scaleSteps (Float.ofNat significand) exponent).map fun x => .floating (n.signed x)

/-- What is wrong with a numeral that breaks off: its text may end here. -/
def incomplete (n : Numeral) : Fault := if n.atEnd then .cutShort else .malformed

/-- A power of ten kept within 32 bits. -/
def clampExponent (x : Int) : Int := max Int32.minValue.toInt (min x Int32.maxValue.toInt)

/-- The number with a written exponent, if there is one, on top of `exponent`. An exponent out of
    all bounds makes a number zero or too large. -/
def withExponent (n : Numeral) (significand : Nat) (exponent : Int) : Except Fault Number :=
  match n.exponent with
  | none => n.floating significand exponent
  | some e =>
    if e.digits = [] then .error n.incomplete
    else
      let written := e.digits.foldl (fun m c => m * 10 + digitValue c) 0
      let positive := e.sign ≠ some '-'
      if maxExponent < written then
        if significand ≠ 0 && positive then .error .malformed
        else .ok (.floating (n.signed 0.0))
      else
        n.floating significand (clampExponent (if positive then exponent + written
          else exponent - written))

/-- The number with written places, if there are any. Places beyond 64 bits of digits do not
    count. -/
def withFraction (n : Numeral) (significand : Nat) (exponent : Int) : Except Fault Number :=
  match n.fraction with
  | none => n.withExponent significand exponent
  | some places =>
    if places = [] then .error n.incomplete
    else
      let (significand, unread) := accumulate significand places
      n.withExponent significand (exponent - (places.length - unread.length : Nat))

/-- The number that a numeral denotes. A numeral must not begin with a needless zero. -/
def number (n : Numeral) : Except Fault Number :=
  if n.digits = [] then .error n.incomplete
  else if n.digits.head? = some '0' && 1 < n.digits.length then .error .malformed
  else
    let (significand, unread) := accumulate 0 n.digits
    if unread ≠ [] || n.fraction.isSome || n.exponent.isSome then
      n.withFraction significand unread.length
    else if !n.negative then .ok (.whole significand)
    else if significand = 0 || -(significand : Int) < minWhole then
      .ok (.floating (n.signed (Float.ofNat significand)))
    else .ok (.whole (-significand))

end Numeral

/-! ## The text of a floating-point number -/

/-- How floating-point numbers are shown: positionally where the power of ten of the first digit
    is in a range, and otherwise with an exponent. -/
structure FloatNotation where
  plainFrom : Int
  plainTo : Int

/-- The notation of messages. -/
def messageNotation : FloatNotation := ⟨-5, 15⟩

/-- The digits of a number. -/
def digitsOf (n : Nat) : List Char := (toString n).toList

/-- Zeros. -/
def zeros (n : Nat) : List Char := List.replicate n '0'

/-- A decimal in some notation. -/
def FloatNotation.layOut (style : FloatNotation) (d : Decimal.Scientific) : List Char :=
  let digits := digitsOf d.digits
  let power := d.exponent + digits.length - 1
  if style.plainFrom ≤ power && power ≤ style.plainTo then
    if power < 0 then '0' :: '.' :: zeros (-power - 1).toNat ++ digits
    else
      let before := power.toNat + 1
      if digits.length ≤ before then digits ++ zeros (before - digits.length) ++ ['.', '0']
      else digits.take before ++ '.' :: digits.drop before
  else
    let fraction := if digits.length = 1 then [] else '.' :: digits.drop 1
    digits.take 1 ++ fraction ++ 'e' :: (if power < 0 then '-' else '+')
      :: digitsOf power.natAbs

/-- The shortest text of a finite floating-point number. -/
def floatText (x : Float) : List Char :=
  let bits := x.toBits
  let sign := if UInt64.size / 2 ≤ bits.toNat then ['-'] else []
  sign ++ messageNotation.layOut (Decimal.Binary.ofBits bits).shortest

end Postmortem.Json
