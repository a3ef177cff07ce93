import ExprScript.Text.Basic

/-!
# Terminal styles

A `Paint` is a terminal style: a code that switches it on, one that switches it off, and what takes the place of the
latter inside painted text, where the style has to go on.

The sequences, and what `Paint.apply` does to styles inside of styles, follow the package `cli-color`, which is not part
of the library.
-/

namespace ExprScript

/-- A terminal style. -/
structure Paint where
  on : Text
  off : Text
  inside : Text

namespace Paint

/-- The control sequence with a number. -/
def sequence (n : Nat) : Text := "\x1b[" ++ Text.ofNat n ++ "m"

/-- A colour: where it is switched off inside, it is switched on again. -/
def colour (n : Nat) : Paint := ⟨sequence n, sequence 39, sequence n⟩

/-- Bold print: where it is switched off inside, it stays on. -/
def bold : Paint := ⟨sequence 1, sequence 22, []⟩

/-- Red. -/
def red : Paint := colour 31

/-- Cyan. -/
def cyan : Paint := colour 36

/-- Grey. -/
def grey : Paint := colour 90

/-- A text in one style. -/
def wrap (p : Paint) (t : Text) : Text := p.on ++ t ++ p.off

/-- A text in several styles, the first outermost. -/
def apply (paints : List Paint) (t : Text) : Text :=
  paints.foldr wrap (paints.foldl (fun t p => Text.replace p.off p.inside t) t)

end Paint

end ExprScript
