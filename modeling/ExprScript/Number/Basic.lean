/-!
# Numbers

A `Number` is a double-precision floating-point datum, held as its 64 bits, so that all facts about it are facts
about naturals.

- A finite number has the magnitude `significand * 2 ^ scale` in steps of `2 ^ -1074` (`Number.steps`), so every
  finite number is an exact fraction with denominator `2 ^ 1074`;
- `Number.ofRatio` is the number nearest to a fraction, ties going to the even significand;
- `Number.ofDecimal` is the number nearest to `digits * 10 ^ exponent`.
-/

namespace ExprScript

/-- A double-precision number, as its bits. -/
structure Number where
  bits : UInt64
deriving DecidableEq

namespace Number

/-- The sign bit. -/
def isNegative (x : Number) : Bool := Nat.pow 2 63 ≤ x.bits.toNat

/-- The eleven bits of the exponent. -/
def biased (x : Number) : Nat := x.bits.toNat / Nat.pow 2 52 % Nat.pow 2 11

/-- The fifty-two bits below the exponent. -/
def fraction (x : Number) : Nat := x.bits.toNat % Nat.pow 2 52

/-- Neither infinite nor a NaN. -/
def isFinite (x : Number) : Bool := x.biased != 2047

/-- No number at all. -/
def isNaN (x : Number) : Bool := x.biased == 2047 && x.fraction != 0

/-- The significand of a finite number: below the normal range the leading bit is missing. -/
def significand (x : Number) : Nat := if x.biased = 0 then x.fraction else Nat.pow 2 52 + x.fraction

/-- The power of two by which the significand counts steps. -/
def scale (x : Number) : Nat := x.biased - 1

/-- The magnitude of a finite number in steps of `2 ^ -1074`. -/
def steps (x : Number) : Nat := x.significand * Nat.pow 2 x.scale

/-- The number of steps in one. -/
def stepsInOne : Nat := Nat.pow 2 1074

/-- A finite number without a fractional part; both zeros are among them. -/
def isInteger (x : Number) : Bool := x.isFinite && x.steps % stepsInOne == 0

/-- The natural number that a number is equal to, if it is one; minus zero is zero. -/
def toNat? (x : Number) : Option Nat :=
  if x.isInteger && (!x.isNegative || x.steps == 0) then some (x.steps / stepsInOne) else none

/-- The bits of a magnitude with a sign. -/
def signed (negative : Bool) (magnitude : Nat) : Number :=
  ⟨(if negative then Nat.pow 2 63 + magnitude else magnitude).toUInt64⟩

/-- Zero of either sign. -/
def zero (negative : Bool) : Number := signed negative 0

/-- Infinity of either sign. -/
def infinity (negative : Bool) : Number := signed negative (2047 * Nat.pow 2 52)

/-- The datum that stands for no number. -/
def nan : Number := signed false (2047 * Nat.pow 2 52 + Nat.pow 2 51)

/-! ## Rounding -/

/-- The natural number nearest to `n / d`; of two equally near ones the even one. -/
def roundDiv (n d : Nat) : Nat :=
  let q := n / d
  let r := n % d
  if 2 * r < d || (2 * r == d && q % 2 == 0) then q else q + 1

/-- The number nearest to `n / d`, for positive `d`: beyond the largest finite number, infinity. -/
def ofRatio (negative : Bool) (n d : Nat) : Number :=
  let whole := n * stepsInOne / d
  let scale := if whole < Nat.pow 2 53 then 0 else Nat.log2 whole - 52
  signed negative (min (scale * Nat.pow 2 52 + roundDiv (n * stepsInOne) (d * Nat.pow 2 scale)) (2047 * Nat.pow 2 52))

/-- How many decimal digits a natural number has; zero has one. -/
def digitCount (n : Nat) : Nat := (Nat.toDigits 10 n).length

/-- The number nearest to `digits * 10 ^ exponent`. Far outside the range of numbers no power is computed. -/
def ofDecimal (negative : Bool) (digits : Nat) (exponent : Int) : Number :=
  if digits = 0 then zero negative
  else if exponent + digitCount digits > 400 then infinity negative
  else if exponent + digitCount digits < -400 then zero negative
  else ofRatio negative (digits * Nat.pow 10 exponent.toNat) (Nat.pow 10 (-exponent).toNat)

/-- The number nearest to a natural number. -/
def ofNat (n : Nat) : Number := ofRatio false n 1

end Number

end ExprScript
