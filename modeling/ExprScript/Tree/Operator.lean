import ExprScript.Text.Basic

/-!
# Operators

The eighteen binary and the six unary operators, in the order in which they are listed, and their names.
-/

namespace ExprScript

/-- A binary operator. -/
inductive BinaryOp where
  | add | subtract | multiply | divide | modulo | power
  | equal | notEqual | lessThan | lessThanOrEqual | greaterThan | greaterThanOrEqual
  | and | or
  | cons | append
  | compose | pipe
deriving DecidableEq

namespace BinaryOp

/-- All binary operators. -/
def all : List BinaryOp :=
  [.add, .subtract, .multiply, .divide, .modulo, .power, .equal, .notEqual, .lessThan, .lessThanOrEqual, .greaterThan,
    .greaterThanOrEqual, .and, .or, .cons, .append, .compose, .pipe]

/-- The name of an operator in a tree. -/
def name : BinaryOp → Text
  | .add => "Add"
  | .subtract => "Subtract"
  | .multiply => "Multiply"
  | .divide => "Divide"
  | .modulo => "Modulo"
  | .power => "Power"
  | .equal => "Equal"
  | .notEqual => "NotEqual"
  | .lessThan => "LessThan"
  | .lessThanOrEqual => "LessThanOrEqual"
  | .greaterThan => "GreaterThan"
  | .greaterThanOrEqual => "GreaterThanOrEqual"
  | .and => "And"
  | .or => "Or"
  | .cons => "Cons"
  | .append => "Append"
  | .compose => "Compose"
  | .pipe => "Pipe"

/-- The operator with a name. -/
def ofName? (name : Text) : Option BinaryOp := all.find? fun op => op.name == name

end BinaryOp

/-- A unary operator. -/
inductive UnaryOp where
  | negate | not | length | head | tail | reverse
deriving DecidableEq

namespace UnaryOp

/-- All unary operators. -/
def all : List UnaryOp := [.negate, .not, .length, .head, .tail, .reverse]

/-- The name of an operator in a tree. -/
def name : UnaryOp → Text
  | .negate => "Negate"
  | .not => "Not"
  | .length => "Length"
  | .head => "Head"
  | .tail => "Tail"
  | .reverse => "Reverse"

/-- The operator with a name. -/
def ofName? (name : Text) : Option UnaryOp := all.find? fun op => op.name == name

end UnaryOp

end ExprScript
