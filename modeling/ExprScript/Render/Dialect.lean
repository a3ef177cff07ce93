import ExprScript.Render.Template
import ExprScript.Tree.Operator

/-!
# Dialects of the target language

A `Dialect` holds every spelling of the rendered code that is not its structure: the operators and the few primitives
that pattern matching needs. `Dialect.assemblyScript` is the one that is used unless another is given.
-/

namespace ExprScript

/-- The spellings of a target language. Holes stand for the arguments in the order of the comments. -/
structure Dialect where
  /-- Left and right operand. -/
  binary : BinaryOp → Template
  /-- The operand. -/
  unary : UnaryOp → Template
  /-- The type of parameters of which no type is known. -/
  anyType : Text
  /-- A value and the literal it is compared with. -/
  equals : Template
  /-- A value and the name of a constructor. -/
  instanceOf : Template
  /-- The argument of a constructor that has only one: the value, the index and the number of arguments. -/
  onlyArgument : Template
  /-- An argument of any other constructor: the value, the index and the number of arguments. -/
  argument : Template
  /-- A value. -/
  isArray : Template
  /-- A value. -/
  notNull : Template
  /-- A value. -/
  length : Template
  /-- A value and the index from which on it is taken. -/
  slice : Template
  /-- The value that no arm matches; a statement. -/
  noMatch : Template

namespace Dialect

/-- An operator between its operands, in parentheses. -/
def between (spelling : Text) : Template := ["(", 0, .text spelling, 1, ")"]

/-- The binary operators of AssemblyScript. Prepending and appending make new lists. -/
def assemblyScriptBinary : BinaryOp → Template
  | .add => between " + "
  | .subtract => between " - "
  | .multiply => between " * "
  | .divide => between " / "
  | .modulo => between " % "
  | .power => ["Math.pow(", 0, ", ", 1, ")"]
  | .equal => between " === "
  | .notEqual => between " !== "
  | .lessThan => between " < "
  | .lessThanOrEqual => between " <= "
  | .greaterThan => between " > "
  | .greaterThanOrEqual => between " >= "
  | .and => between " && "
  | .or => between " || "
  | .cons => ["[", 0, "].concat(", 1, ")"]
  | .append => ["(", 0, ").concat(", 1, ")"]
  | .compose => ["((_arg: any) => ", 0, "(", 1, "(_arg)))"]
  | .pipe => ["((_arg: any) => ", 1, "(", 0, "(_arg)))"]

/-- The unary operators of AssemblyScript. A negated operand is grouped, so that two signs never meet, and a list is
copied before it is reversed. -/
def assemblyScriptUnary : UnaryOp → Template
  | .negate => ["(-(", 0, "))"]
  | .not => ["(!", 0, ")"]
  | .length => ["(", 0, ".length)"]
  | .head => ["(", 0, "[0])"]
  | .tail => ["(", 0, ".slice(1))"]
  | .reverse => ["(Array.from(", 0, ").reverse())"]

/-- The spellings of AssemblyScript. -/
def assemblyScript : Dialect where
  binary := assemblyScriptBinary
  unary := assemblyScriptUnary
  anyType := "any"
  equals := [0, " === ", 1]
  instanceOf := [0, " instanceof ", 1]
  onlyArgument := [0, ".value"]
  argument := [0, ".arg", 1]
  isArray := ["Array.isArray(", 0, ")"]
  notNull := [0, " != null"]
  length := [0, ".length"]
  slice := [0, ".slice(", 1, ")"]
  noMatch := ["throw new Error(\"No match found for value: \" + String(", 0, "));"]

end Dialect

/-- What rendering depends on, apart from indentation. -/
structure Style where
  dialect : Dialect := .assemblyScript
  /-- The parameter that holds the scrutinee of a case. -/
  matchVar : Text := "_match"
  /-- The variable of a catch clause. -/
  errorVar : Text := "_error"

end ExprScript
