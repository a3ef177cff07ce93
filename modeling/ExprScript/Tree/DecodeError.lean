import ExprScript.Json.Basic
import ExprScript.Number.Shortest
import ExprScript.Tree.Kind
import ExprScript.Tree.Path

/-!
# What is wrong with a value that is no tree

A `DecodeError` says where a value is not what it should be (`path`, from the root of the value) and why (`cause`).
-/

namespace ExprScript

/-- The shapes that a value may have to have. -/
inductive Shape where
  | object | array | string | number | boolean
deriving DecidableEq

/-- A shape with its article. -/
def Shape.description : Shape → Text
  | .object => "an object"
  | .array => "an array"
  | .string => "a string"
  | .number => "a number"
  | .boolean => "a boolean"

/-- The sorts of nodes that name their kind. -/
inductive NodeSort where
  | expression | pattern | declaration | statement
deriving DecidableEq

/-- The name of a sort of node. -/
def NodeSort.description : NodeSort → Text
  | .expression => "expression"
  | .pattern => "pattern"
  | .declaration => "declaration"
  | .statement => "do statement"

/-- Why a value is no tree. -/
inductive DecodeCause where
  | expected (shape : Shape) (found : Found)
  | notInteger (value : Number)
  | unknownKind (sort : NodeSort) (name : Text)
  | unknownBinary (op : Text)
  | unknownUnary (op : Text)
  | noArms
  | noAlternatives
  | notLiteral (kind : ExprKind)

/-- The wording of a cause. -/
def DecodeCause.message : DecodeCause → Text
  | .expected shape found => "Expected " ++ shape.description ++ ", got " ++ found.description
  | .notInteger value => "Expected an integer, got " ++ value.text
  | .unknownKind sort name => "Unknown " ++ sort.description ++ " kind: " ++ name
  | .unknownBinary op => "Unknown binary operator: " ++ op
  | .unknownUnary op => "Unknown unary operator: " ++ op
  | .noArms => "Expected at least one arm"
  | .noAlternatives => "Or-pattern needs at least one alternative"
  | .notLiteral kind => "Literal pattern needs an int, string or bool literal, got " ++ kind.name

/-- A cause, and where it lies. -/
structure DecodeError where
  path : Path
  cause : DecodeCause

/-- The outcome of decoding. -/
abbrev Decoded := Except DecodeError

namespace Decoded

/-- Decoding fails at the value itself. -/
def fail {α : Type} (cause : DecodeCause) : Decoded α := .error ⟨[], cause⟩

/-- The outcome of decoding a part, as an outcome of the whole: an error lies one step deeper. -/
def within {α : Type} (step : Step) : Decoded α → Decoded α
  | .ok a => .ok a
  | .error e => .error ⟨step :: e.path, e.cause⟩

end Decoded

end ExprScript
