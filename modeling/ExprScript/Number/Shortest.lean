import ExprScript.Number.Basic
import ExprScript.Text.Basic

/-!
# Numbers in decimal

- `Number.shortest` gives the fewest decimal digits that read back as the same number, and of those the nearest;
- `Number.text` writes them: positionally from `10 ^ -6` up to below `10 ^ 21`, with an exponent outside, and zero
  without its sign.
-/

namespace ExprScript.Number

/-- A positive decimal `digits * 10 ^ exponent`. -/
structure Decimal where
  digits : Nat
  exponent : Int

/-! ## The fewest digits -/

/-- The reals that round to a finite number, in quarters of a step: the two bounds, and whether they belong to it. -/
structure Interval where
  lower : Nat
  upper : Nat
  closed : Bool

/-- The interval of a positive finite number. Below a power of two the neighbour is only half as far away. -/
def interval (x : Number) : Interval where
  lower := 4 * x.steps - (if x.fraction = 0 && 1 < x.biased then 1 else 2) * Nat.pow 2 x.scale
  upper := 4 * x.steps + 2 * Nat.pow 2 x.scale
  closed := x.significand % 2 == 0

/-- Whether `lower / d ≤ n ≤ upper / d`, with the bounds counted only if they belong to the interval. -/
def Interval.holds (i : Interval) (n d : Nat) : Bool :=
  if i.closed then i.lower * d ≤ n && n ≤ i.upper * d else i.lower * d < n && n < i.upper * d

/-- The position of the decimal point of a positive finite number: the least `k` with the number below `10 ^ k`. -/
def pointPosition (x : Number) : Int :=
  if stepsInOne ≤ x.steps then digitCount (x.steps / stepsInOne) else 1 - digitCount (stepsInOne / x.steps)

/-- The decimal with `count` digits that reads back as the positive finite number `x`, if there is one: of the two
neighbours of `x` on the grid the one in the interval of `x`, and if both are, the nearer one. -/
def onGrid? (x : Number) (count : Nat) : Option Decimal :=
  let exponent : Int := x.pointPosition - count
  let up := Nat.pow 10 (-exponent).toNat
  let grid := 4 * stepsInOne * Nat.pow 10 exponent.toNat
  let value := 4 * x.steps * up
  let below := value / grid
  let hit (n : Nat) := x.interval.holds (n * grid) up
  let nearerBelow := 2 * value < (2 * below + 1) * grid || (2 * value == (2 * below + 1) * grid && below % 2 == 0)
  if hit below && (nearerBelow || !hit (below + 1)) then some ⟨below, exponent⟩
  else if hit (below + 1) then some ⟨below + 1, exponent⟩
  else none

/-- The shortest decimal that reads back as the positive finite number `x`. Seventeen digits always suffice. -/
def shortest (x : Number) : Decimal :=
  ((List.range 17).findSome? fun i => x.onGrid? (i + 1)).getD ⟨0, 0⟩

/-! ## The written form -/

/-- The digits without trailing zeros. -/
def significantDigits (d : Decimal) : Text :=
  ((Text.ofNat d.digits).reverse.dropWhile (· == unit '0')).reverse

/-- A positive finite number. -/
def positiveText (x : Number) : Text :=
  let d := x.shortest
  let digits := significantDigits d
  let point : Int := d.exponent + digitCount d.digits
  if digits.length ≤ point && point ≤ 21 then digits ++ List.replicate (point.toNat - digits.length) (unit '0')
  else if 0 < point && point ≤ 21 then digits.take point.toNat ++ unit '.' :: digits.drop point.toNat
  else if -6 < point && point ≤ 0 then "0." ++ List.replicate (-point).toNat (unit '0') ++ digits
  else
    let lead := match digits with
      | c :: rest@(_ :: _) => c :: unit '.' :: rest
      | one => one
    let power := point - 1
    lead ++ (if power < 0 then "e-" else "e+" : Text) ++ Text.ofNat power.natAbs

/-- A number in decimal. Both zeros are `0`. -/
def text (x : Number) : Text :=
  if x.isNaN then "NaN"
  else
    let sign : Text := if x.isNegative then "-" else []
    if !x.isFinite then sign ++ "Infinity"
    else if x.steps = 0 then "0"
    else sign ++ x.positiveText

end ExprScript.Number
