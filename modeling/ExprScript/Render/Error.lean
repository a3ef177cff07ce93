import ExprScript.Json.Display
import ExprScript.Tree.DecodeError

/-!
# What cannot be rendered

A `RenderError` is raised for trees that no decoder gives (a node of no known kind, an unknown operator) and for one
reason that decoded trees may have: alternatives of an or-pattern that bind variables.
-/

namespace ExprScript

/-- Why a tree cannot be rendered. -/
inductive RenderError where
  | unhandled (sort : NodeSort) (node : Json)
  | unknownBinary (op expression : Text)
  | unknownUnary (op expression : Text)
  | bindingAlternatives (names : List Text) (pattern : Text)

namespace RenderError

/-- The wording of an error. -/
def message : RenderError → Text
  | .unhandled .statement node => "Unhandled do statement: " ++ node.display
  | .unhandled sort node => "Unhandled " ++ sort.description ++ " kind: " ++ node.display
  | .unknownBinary op _ => "Unknown binary operator: " ++ op
  | .unknownUnary op _ => "Unknown unary operator: " ++ op
  | .bindingAlternatives names _ => "Or-pattern alternatives cannot bind variables: " ++ Text.join ", " names

/-- Where in the tree the error lies, in source notation. -/
def notes : RenderError → List Text
  | .unhandled _ _ => []
  | .unknownBinary _ expression => ["in expression " ++ expression]
  | .unknownUnary _ expression => ["in expression " ++ expression]
  | .bindingAlternatives _ pattern => ["in pattern " ++ pattern]

end RenderError

/-- The outcome of rendering. -/
abbrev Rendered := Except RenderError

end ExprScript
