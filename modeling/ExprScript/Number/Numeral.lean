import ExprScript.Number.Basic
import ExprScript.Text.Basic

/-!
# Numerals

- `Numeral.readJson` reads a JSON number at the front of a text;
- `Numeral.value` gives the number that a whole text denotes: blanks around it are ignored, nothing at all is zero,
  and decimal numerals, `Infinity` and hexadecimal, octal and binary naturals are understood.
-/

namespace ExprScript.Numeral

/-- The leading decimal digits, and what follows them. -/
def spanDigits (t : Text) : Text × Text := t.span CodeUnit.isDigit

/-- Reads an exponent part, if there is one: `e` or `E`, an optional sign, and at least one digit. -/
def readExponent (t : Text) : Option (Int × Text) :=
  match t with
  | c :: rest =>
    if c = unit 'e' || c = unit 'E' then
      let (negative, rest) := match rest with
        | s :: rest' => if s = unit '-' then (true, rest') else if s = unit '+' then (false, rest') else (false, rest)
        | [] => (false, rest)
      let (digits, rest) := spanDigits rest
      if digits.isEmpty then none
      else
        let e : Int := Text.digitsValue digits
        some (if negative then -e else e, rest)
    else some (0, t)
  | [] => some (0, t)

/-- The number with these digits before and after the point, times ten to the exponent. -/
def ofParts (negative : Bool) (whole fraction : Text) (exponent : Int) : Number :=
  Number.ofDecimal negative (Text.digitsValue (whole ++ fraction)) (exponent - fraction.length)

/-- An optional minus sign. -/
def readMinus : Text → Bool × Text
  | [] => (false, [])
  | c :: rest => if c = unit '-' then (true, rest) else (false, c :: rest)

/-- Reads an optional point with the digits after it. -/
def readFraction (t : Text) : Option Text × Text :=
  match t with
  | c :: rest => if c = unit '.' then let (digits, rest) := spanDigits rest; (some digits, rest) else (none, t)
  | [] => (none, t)

/-- Reads a JSON number: no leading zeros, no plus sign, and a digit on both sides of a point. -/
def readJson (t : Text) : Option (Number × Text) := do
  let (negative, t) := readMinus t
  let (whole, t) := spanDigits t
  guard (!whole.isEmpty && (whole.length == 1 || whole.head? != some (unit '0')))
  let (fraction, t) := readFraction t
  guard (fraction != some [])
  let (exponent, t) ← readExponent t
  return (ofParts negative whole (fraction.getD []) exponent, t)

/-! ## Whole texts -/

/-- A blank that may stand around a numeral: white space, line ends, and the byte order mark. -/
def isBlank (u : CodeUnit) : Bool :=
  (9 ≤ u && u ≤ 13) || u == 0x20 || u == 0xA0 || u == 0x1680 || (0x2000 ≤ u && u ≤ 0x200A) || u == 0x2028 ||
    u == 0x2029 || u == 0x202F || u == 0x205F || u == 0x3000 || u == 0xFEFF

/-- A text without the blanks around it. -/
def trim (t : Text) : Text := ((t.dropWhile isBlank).reverse.dropWhile isBlank).reverse

/-- The natural number written by a non-empty sequence of digits of a base. -/
def digitsInBase? (base : Nat) (t : Text) : Option Nat :=
  if t.isEmpty then none
  else t.foldlM (fun n u => do
    let d ← u.hexValue?
    if d < base then some (base * n + d) else none) 0

/-- The base announced by the letter after a leading zero. -/
def baseOf? (letter : CodeUnit) : Option Nat :=
  if letter = unit 'x' || letter = unit 'X' then some 16
  else if letter = unit 'o' || letter = unit 'O' then some 8
  else if letter = unit 'b' || letter = unit 'B' then some 2
  else none

/-- A natural number with a base mark. -/
def based? : Text → Option Number
  | zero :: letter :: digits => do
    guard (zero == unit '0')
    let base ← baseOf? letter
    return Number.ofNat (← digitsInBase? base digits)
  | _ => none

/-- A decimal numeral without its sign: digits on at least one side of an optional point, and an optional exponent. -/
def decimal? (negative : Bool) (t : Text) : Option Number := do
  let (whole, t) := spanDigits t
  let (fraction, t) := readFraction t
  guard (!(whole ++ fraction.getD []).isEmpty)
  let (exponent, t) ← readExponent t
  guard t.isEmpty
  return ofParts negative whole (fraction.getD []) exponent

/-- A numeral with an optional sign. -/
def signed? (t : Text) : Option Number :=
  let (negative, t) := match t with
    | c :: rest => if c = unit '-' then (true, rest) else if c = unit '+' then (false, rest) else (false, t)
    | [] => (false, t)
  if t = "Infinity" then some (Number.infinity negative) else decimal? negative t

/-- The number that a text denotes; a text that denotes none gives a NaN. -/
def value (t : Text) : Number :=
  let t := trim t
  if t.isEmpty then Number.zero false else ((based? t).or (signed? t)).getD Number.nan

end ExprScript.Numeral
