import ExprScript.Json.Basic
import ExprScript.Number.Numeral
import ExprScript.Text.Quoted

/-!
# Reading JSON

`Json.parse?` reads a whole text: one value with blanks around it. The reader of values recurses on a bound on the
number of its own calls; two calls for every unit of the text, and two for the end, are enough.
-/

namespace ExprScript.Json

/-- The four blanks of JSON. -/
def isBlank (u : CodeUnit) : Bool := u == 0x20 || u == 0x09 || u == 0x0A || u == 0x0D

/-- The text after its leading blanks. -/
def skipBlanks (t : Text) : Text := t.dropWhile isBlank

/-- The text after a fixed word. -/
def readWord (word t : Text) : Option Text :=
  if word.isPrefixOf t then some (t.drop word.length) else none

/-- Reads a name and the colon after it. -/
def readName : Text → Option (Text × Text)
  | quote :: rest => do
    guard (quote == unit '\"')
    let (name, rest) ← Quoted.read rest
    let rest ← readWord ":" (skipBlanks rest)
    return (name, rest)
  | [] => none

mutual

/-- Reads a value at the front of a text. -/
def readValue : Nat → Text → Option (Json × Text)
  | 0, _ => none
  | bound + 1, t =>
    match skipBlanks t with
    | [] => none
    | c :: rest =>
      if c = unit '\"' then do
        let (s, rest) ← Quoted.read rest
        return (.string s, rest)
      else if c = unit '[' then
        match readWord "]" (skipBlanks rest) with
        | some rest => some (.array [], rest)
        | none => do
          let (elements, rest) ← readElements bound rest
          return (.array elements, rest)
      else if c = unit '\x7b' then
        match readWord "\x7d" (skipBlanks rest) with
        | some rest => some (.object [], rest)
        | none => do
          let (members, rest) ← readMembers bound rest
          return (ofMembers members, rest)
      else if c = unit 't' then (.bool true, ·) <$> readWord "true" (c :: rest)
      else if c = unit 'f' then (.bool false, ·) <$> readWord "false" (c :: rest)
      else if c = unit 'n' then (.null, ·) <$> readWord "null" (c :: rest)
      else do
        let (n, rest) ← Numeral.readJson (c :: rest)
        return (.number n, rest)

/-- Reads the elements of an array up to its closing bracket. -/
def readElements : Nat → Text → Option (List Json × Text)
  | 0, _ => none
  | bound + 1, t => do
    let (first, rest) ← readValue bound t
    match readWord "," (skipBlanks rest) with
    | some rest => do
      let (others, rest) ← readElements bound rest
      return (first :: others, rest)
    | none => do
      let rest ← readWord "]" (skipBlanks rest)
      return ([first], rest)

/-- Reads the members of an object up to its closing brace. -/
def readMembers : Nat → Text → Option (List Member × Text)
  | 0, _ => none
  | bound + 1, t => do
    let (name, rest) ← readName (skipBlanks t)
    let (value, rest) ← readValue bound rest
    match readWord "," (skipBlanks rest) with
    | some rest => do
      let (others, rest) ← readMembers bound rest
      return (⟨name, value⟩ :: others, rest)
    | none => do
      let rest ← readWord "\x7d" (skipBlanks rest)
      return ([⟨name, value⟩], rest)

end

/-- The value that a text holds, if it is JSON. -/
def parse? (t : Text) : Option Json := do
  let (value, rest) ← readValue (2 * t.length + 2) t
  guard (skipBlanks rest).isEmpty
  return value

end ExprScript.Json
