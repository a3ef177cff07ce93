import ExprScript.Text.Basic

/-!
# Lines and columns

A line ends after a line feed, a carriage return (together with a line feed right after it), U+2028 or U+2029. The
line of a position is the last one that starts at or before it, so a position past the end counts on from the last
line.

These rules follow `getLineAndCharacterOfPosition` of the parser's package, which is not part of the library.
-/

namespace ExprScript

/-- A line and a column, both from zero. -/
structure Position where
  line : Nat
  column : Nat
deriving DecidableEq

namespace Position

/-- Whether a line ends after a unit, given what follows it. -/
def endsLine (u : CodeUnit) (rest : Text) : Bool :=
  u == 10 || u == 0x2028 || u == 0x2029 || (u == 13 && rest.head? != some 10)

/-- The offsets at which lines start, in a text that begins at `offset`, the start of its first line left out. -/
def lineStartsFrom (offset : Nat) : Text → List Nat
  | [] => []
  | u :: rest =>
    if endsLine u rest then (offset + 1) :: lineStartsFrom (offset + 1) rest else lineStartsFrom (offset + 1) rest

/-- The offsets at which the lines of a text start. -/
def lineStarts (t : Text) : List Nat := 0 :: lineStartsFrom 0 t

/-- The position of an offset in a text. -/
def ofOffset (t : Text) (offset : Nat) : Position :=
  let before := (lineStarts t).filter (· ≤ offset)
  ⟨before.length - 1, offset - before.getLast?.getD 0⟩

end Position

end ExprScript
