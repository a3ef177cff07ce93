import ExprScript.Json.Basic
import ExprScript.Number.Shortest
import ExprScript.Text.Quoted

/-!
# Showing a JSON value

- `Json.display` shows a value on one line for error messages: three levels in full, what lies deeper only as
  `[Object]` or `[Array]`, strings in the quotes that need the least escaping and cut where they are very long;
- `Json.plain` is the bare text of a value, as when it is put into a sentence.
-/

namespace ExprScript

namespace Shown

/-- The single quote, which is used wherever it can be. -/
def singleQuote : CodeUnit := 0x27

/-- The double quote. -/
def doubleQuote : CodeUnit := 0x22

/-- The back quote. -/
def backQuote : CodeUnit := 0x60

/-- The quote around a text: single quotes, unless the text has some and another kind of quote has none to escape. -/
def quoteFor (t : Text) : CodeUnit :=
  if !t.contains singleQuote then singleQuote
  else if !t.contains doubleQuote then doubleQuote
  else if !t.contains backQuote && !hasHole t then backQuote
  else singleQuote
where
  /-- Whether a dollar sign stands before an opening brace. -/
  hasHole : Text → Bool
    | a :: b :: rest => (a == unit '$' && b == unit '\x7b') || hasHole (b :: rest)
    | _ => false

/-- A hexadecimal digit, letters in upper case. -/
def hexDigit (n : Nat) : CodeUnit := if n < 10 then (48 + n).toUInt16 else (55 + n).toUInt16

/-- A unit of a quoted text that is not part of a surrogate pair. -/
def escapeUnit (quote u : CodeUnit) : Text :=
  if u = unit '\\' || (u = quote && quote = singleQuote) then [unit '\\', u]
  else if u = 8 then "\\b"
  else if u = 9 then "\\t"
  else if u = 10 then "\\n"
  else if u = 12 then "\\f"
  else if u = 13 then "\\r"
  else if u < 0x20 || (0x7F ≤ u && u ≤ 0x9F) then "\\x" ++ [hexDigit (u.toNat / 16), hexDigit (u.toNat % 16)]
  else if u.isHigh || u.isLow then Quoted.escapeHex u
  else [u]

/-- The text between the quotes. -/
def escape (quote : CodeUnit) : Text → Text
  | [] => []
  | [u] => escapeUnit quote u
  | u :: v :: rest =>
    if u.isHigh && v.isLow then u :: v :: escape quote rest else escapeUnit quote u ++ escape quote (v :: rest)

/-- A text in quotes. -/
def quoted (t : Text) : Text :=
  let quote := quoteFor t
  quote :: escape quote t ++ [quote]

/-- How many units of a string are shown. -/
def stringLimit : Nat := 10000

/-- What is said about the units that are not shown. -/
def remainder : Nat → Text
  | 0 => []
  | 1 => "... 1 more character"
  | n => "... " ++ Text.ofNat n ++ " more characters"

/-- A string, of which only the beginning is shown if it is too long. The cut may leave half a surrogate pair. -/
def string (t : Text) : Text := quoted (t.take stringLimit) ++ remainder (t.length - stringLimit)

/-- A name that needs no quotes. -/
def isPlainName : Text → Bool
  | [] => false
  | c :: rest => starts c && rest.all fun u => starts u || u.isDigit
where
  starts (u : CodeUnit) : Bool := u.isLetter || u == unit '_'

/-- The name of a member. The one name that would set the prototype of an object is put in brackets. -/
def memberName (name : Text) : Text :=
  if name = "__proto__" then "['__proto__']" else if isPlainName name then name else quoted name

/-- A number; the sign of zero shows. -/
def number (x : Number) : Text := if x = Number.zero true then "-0" else x.text

end Shown

namespace Json

/-- Entries between brackets. -/
def bracketed (opening closing : Text) (entries : List Text) : Text :=
  opening ++ " " ++ Text.join ", " entries ++ " " ++ closing

mutual

/-- Shows a value that stands `level` levels below the one shown. -/
def displayAt (level : Nat) : Json → Text
  | .null => "null"
  | .bool b => if b then "true" else "false"
  | .number x => Shown.number x
  | .string s => Shown.string s
  | .array elements =>
    if elements.isEmpty then "[]"
    else if 2 < level then "[Array]"
    else bracketed "[" "]" (displayElements (level + 1) elements)
  | .object members =>
    if members.isEmpty then "\x7b\x7d"
    else if 2 < level then "[Object]"
    else bracketed "\x7b" "\x7d" (displayMembers (level + 1) members)

/-- Shows the elements of an array. -/
def displayElements (level : Nat) : List Json → List Text
  | [] => []
  | e :: rest => displayAt level e :: displayElements level rest

/-- Shows the members of an object. -/
def displayMembers (level : Nat) : List Member → List Text
  | [] => []
  | ⟨name, value⟩ :: rest => (Shown.memberName name ++ ": " ++ displayAt level value) :: displayMembers level rest

end

/-- Shows a value on one line. -/
def display (j : Json) : Text := displayAt 0 j

mutual

/-- The bare text of a value: an array is the bare texts of its elements between commas. -/
def plain : Json → Text
  | .null => "null"
  | .bool b => if b then "true" else "false"
  | .number x => x.text
  | .string s => s
  | .array elements => Text.join "," (plainElements elements)
  | .object _ => "[object Object]"

/-- The bare texts of the elements of an array, in which null leaves nothing. -/
def plainElements : List Json → List Text
  | [] => []
  | .null :: rest => [] :: plainElements rest
  | e :: rest => plain e :: plainElements rest

end

end Json

end ExprScript
