import ExprScript.Layout.Code

/-!
# How long code gets

The length of a laid-out text depends on the width of the indentation, and in a simple way: every space of the width
adds one unit for every level of every indented line. An `Extent` is such a length, with the width left open.

- `Code.extent` is the extent of a piece of code;
- `Extent.exceeds` says for which widths a text is longer than a text can be;
- `Code.spaced?` is the text of a piece of code for a width, if it is not too long.
-/

namespace ExprScript

/-- The length that no text exceeds. -/
def maxTextLength : Nat := Nat.pow 2 29 - 24

/-- A length: some units, and the indentation of some levels. -/
structure Extent where
  units : Nat
  levels : Nat
deriving DecidableEq

namespace Extent

/-- The length for a width of indentation. -/
def length (width : Nat) (x : Extent) : Nat := x.units + width * x.levels

/-- Whether no text can be so long, for a width of indentation. -/
def exceeds (width : Nat) (x : Extent) : Bool := maxTextLength < x.length width

/-- The extent of the indentation of a line. -/
def ofLevel (level : Nat) : Extent := ⟨0, level⟩

/-- The extent with some units more. -/
def plus (x : Extent) (units : Nat) : Extent := ⟨x.units + units, x.levels⟩

end Extent

namespace Code

/-- The extent of a piece of code, from its texts without indentation and with one space per level. -/
def extent (c : Code) : Extent :=
  let flush := (c.toText []).length
  ⟨flush, (c.toText [unit ' ']).length - flush⟩

/-- The text of a piece of code with `width` spaces per level, unless it would be too long for a text with `around`
units more. It may be very long, so it is made when it is asked for, and no spaces are made if no line is indented. -/
def spaced? (width around : Nat) (c : Code) : Option (Thunk Text) :=
  let extent := c.extent
  if (extent.plus around).exceeds width then none
  else if extent.levels = 0 then some (.mk fun _ => c.toText [])
  else some (.mk fun _ => c.toText (List.replicate width (unit ' ')))

end Code

end ExprScript
