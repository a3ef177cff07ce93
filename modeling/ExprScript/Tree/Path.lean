import ExprScript.Text.Basic

/-!
# Paths into a JSON value

A path is a sequence of steps, each into a member of an object or an element of an array.
-/

namespace ExprScript

/-- One step into a JSON value. -/
inductive Step where
  | member (name : Text)
  | index (i : Nat)
deriving DecidableEq

/-- A step as it is written after what it starts from. -/
def Step.text : Step → Text
  | .member name => "." ++ name
  | .index i => "[" ++ Text.ofNat i ++ "]"

/-- A sequence of steps. -/
abbrev Path := List Step

/-- A path from a root with a name. -/
def Path.text (root : Text) (path : Path) : Text := root ++ path.flatMap Step.text

end ExprScript
