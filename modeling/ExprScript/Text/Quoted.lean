import ExprScript.Text.Basic

/-!
# Quoted text

A text between double quotes in which every unit keeps its identity.

- `Quoted.encode` escapes the quote, the backslash, the units below U+0020 and lone surrogates, and nothing else;
- `Quoted.read` reads such a text up to its closing quote, with every escape that JSON allows.
-/

namespace ExprScript.Quoted

/-- A hexadecimal digit, letters in lower case. -/
def hexDigit (n : Nat) : CodeUnit := if n < 10 then (48 + n).toUInt16 else (87 + n).toUInt16

/-- The escape that names a unit by its four hexadecimal digits. -/
def escapeHex (u : CodeUnit) : Text :=
  [unit '\\', unit 'u', hexDigit (u.toNat / 0x1000), hexDigit (u.toNat / 0x100 % 0x10),
    hexDigit (u.toNat / 0x10 % 0x10), hexDigit (u.toNat % 0x10)]

/-- The letter after the backslash, for the units that have a short escape. -/
def shortEscape? (u : CodeUnit) : Option CodeUnit :=
  if u = unit '\"' || u = unit '\\' then some u
  else if u = 8 then some (unit 'b')
  else if u = 9 then some (unit 't')
  else if u = 10 then some (unit 'n')
  else if u = 12 then some (unit 'f')
  else if u = 13 then some (unit 'r')
  else none

/-- A unit that is not part of a surrogate pair. -/
def escapeUnit (u : CodeUnit) : Text :=
  match shortEscape? u with
  | some letter => [unit '\\', letter]
  | none => if u < 0x20 || u.isHigh || u.isLow then escapeHex u else [u]

/-- The text between the quotes. -/
def escape : Text → Text
  | [] => []
  | [u] => escapeUnit u
  | u :: v :: rest => if u.isHigh && v.isLow then u :: v :: escape rest else escapeUnit u ++ escape (v :: rest)

/-- A text in quotes. -/
def encode (t : Text) : Text := unit '\"' :: escape t ++ [unit '\"']

/-- The unit that a letter after a backslash stands for. -/
def unescape? (letter : CodeUnit) : Option CodeUnit :=
  if letter = unit '\"' || letter = unit '\\' || letter = unit '/' then some letter
  else if letter = unit 'b' then some 8
  else if letter = unit 't' then some 9
  else if letter = unit 'n' then some 10
  else if letter = unit 'f' then some 12
  else if letter = unit 'r' then some 13
  else none

/-- The unit that four hexadecimal digits name. -/
def hexUnit? (a b c d : CodeUnit) : Option CodeUnit := do
  let a ← a.hexValue?
  let b ← b.hexValue?
  let c ← c.hexValue?
  let d ← d.hexValue?
  return (((a * 16 + b) * 16 + c) * 16 + d).toUInt16

/-- Reads what follows an opening quote: the text, and what is left after the closing quote. -/
def read : Text → Option (Text × Text)
  | [] => none
  | c :: rest =>
    if c = unit '\"' then some ([], rest)
    else if c < 0x20 then none
    else if c = unit '\\' then
      match rest with
      | letter :: rest₁ =>
        if letter = unit 'u' then
          match rest₁ with
          | a :: b :: c :: d :: rest₂ => do
            let u ← hexUnit? a b c d
            let (t, left) ← read rest₂
            return (u :: t, left)
          | _ => none
        else do
          let u ← unescape? letter
          let (t, left) ← read rest₁
          return (u :: t, left)
      | [] => none
    else do
      let (t, left) ← read rest
      return (c :: t, left)

end ExprScript.Quoted
