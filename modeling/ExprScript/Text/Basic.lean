/-!
# Text as code units

- `Text` is a list of 16-bit code units: lengths, columns and lone surrogates are facts about the list;
- `Text.ofString` embeds a string literal, and is a coercion, so that fixed spellings are written as literals;
- `Text.join`, `Text.splitOn` and `Text.replace` are the three operations on whole texts.
-/

namespace ExprScript

/-- A 16-bit code unit. -/
abbrev CodeUnit := UInt16

/-- A sequence of code units; it need not be well-formed UTF-16. -/
abbrev Text := List CodeUnit

/-- The unit of a character of the basic plane. -/
def unit (c : Char) : CodeUnit := c.toNat.toUInt16

namespace CodeUnit

/-- A leading surrogate. -/
def isHigh (u : CodeUnit) : Bool := 0xD800 ≤ u && u < 0xDC00

/-- A trailing surrogate. -/
def isLow (u : CodeUnit) : Bool := 0xDC00 ≤ u && u < 0xE000

/-- One of the ten ASCII digits. -/
def isDigit (u : CodeUnit) : Bool := unit '0' ≤ u && u ≤ unit '9'

/-- An ASCII letter. -/
def isLetter (u : CodeUnit) : Bool :=
  (unit 'a' ≤ u && u ≤ unit 'z') || (unit 'A' ≤ u && u ≤ unit 'Z')

/-- The value of a hexadecimal digit in either case. -/
def hexValue? (u : CodeUnit) : Option Nat :=
  if u.isDigit then some (u.toNat - 48)
  else if unit 'a' ≤ u && u ≤ unit 'f' then some (u.toNat - 87)
  else if unit 'A' ≤ u && u ≤ unit 'F' then some (u.toNat - 55)
  else none

/-- The units of a code point: itself in the basic plane, a surrogate pair above it. -/
def ofCodePoint (n : Nat) : Text :=
  if n < 0x10000 then [n.toUInt16]
  else [(0xD800 + (n - 0x10000) / 0x400).toUInt16, (0xDC00 + (n - 0x10000) % 0x400).toUInt16]

/-- The code point of a surrogate pair. -/
def codePointOfPair (high low : CodeUnit) : Nat :=
  0x10000 + (high.toNat - 0xD800) * 0x400 + (low.toNat - 0xDC00)

end CodeUnit

/-- The line feed, which ends a line. -/
def newline : CodeUnit := 10

namespace Text

/-- The text of a list of characters. -/
def ofChars (cs : List Char) : Text := cs.flatMap fun c => CodeUnit.ofCodePoint c.toNat

/-- The text of a string. -/
def ofString (s : String) : Text := ofChars s.toList

instance : Coe String Text := ⟨ofString⟩

/-- A natural number in decimal. -/
def ofNat (n : Nat) : Text := ofChars (Nat.toDigits 10 n)

/-- The parts with `separator` between neighbours. -/
def join (separator : Text) (parts : List Text) : Text := separator.intercalate parts

/-- The pieces between the occurrences of a unit: always one more than there are occurrences. -/
def splitOn (u : CodeUnit) : Text → List Text
  | [] => [[]]
  | c :: rest =>
    if c = u then [] :: splitOn u rest
    else match splitOn u rest with
      | piece :: pieces => (c :: piece) :: pieces
      | [] => [[c]]

/-- Replaces what is left of the text, after passing over `skip` units that belong to an occurrence already seen. -/
def replaceFrom (old new : Text) : Nat → Text → Text
  | _, [] => []
  | skip + 1, _ :: rest => replaceFrom old new skip rest
  | 0, c :: rest =>
    if old.isPrefixOf (c :: rest) then new ++ replaceFrom old new (old.length - 1) rest
    else c :: replaceFrom old new 0 rest

/-- Replaces the occurrences of the non-empty text `old`, from left to right. -/
def replace (old new t : Text) : Text := replaceFrom old new 0 t

/-- The number written by a sequence of decimal digits. -/
def digitsValue (digits : Text) : Nat := digits.foldl (fun n d => 10 * n + (d.toNat - 48)) 0

/-- An identifier of the target language: a letter, `_` or `$`, then any of these and digits. -/
def isIdentifier : Text → Bool
  | [] => false
  | c :: rest => starts c && rest.all fun u => starts u || u.isDigit
where
  starts (u : CodeUnit) : Bool := u.isLetter || u == unit '_' || u == unit '$'

end Text

/-- An optional text that is there and not empty: an empty one counts as absent. -/
def nonEmpty? : Option Text → Option Text
  | some [] => none
  | t => t

end ExprScript
