import ExprScript.Text.Basic

/-!
# Kinds of nodes

Every node of a tree names its kind. The kinds of expressions, patterns, do statements and declarations are four
closed sets, each with its names and the way back from a name.
-/

namespace ExprScript

/-- The kinds of expressions. -/
inductive ExprKind where
  | int | string | bool | list | record
  | variable | qualified
  | binary | unary | call | construct
  | recordCreate | recordUpdate | field | index
  | ifThenElse | letIn | caseOf | lambda | tryCatch | doBlock
  | map | filter | fold | annotate
deriving DecidableEq

namespace ExprKind

/-- All kinds of expressions. -/
def all : List ExprKind :=
  [.int, .string, .bool, .list, .record, .variable, .qualified, .binary, .unary, .call, .construct, .recordCreate,
    .recordUpdate, .field, .index, .ifThenElse, .letIn, .caseOf, .lambda, .tryCatch, .doBlock, .map, .filter, .fold,
    .annotate]

/-- The name of a kind of expression. -/
def name : ExprKind → Text
  | .int => "int"
  | .string => "string"
  | .bool => "bool"
  | .list => "list"
  | .record => "record"
  | .variable => "variable"
  | .qualified => "qualified"
  | .binary => "binary"
  | .unary => "unary"
  | .call => "call"
  | .construct => "construct"
  | .recordCreate => "recordCreate"
  | .recordUpdate => "recordUpdate"
  | .field => "field"
  | .index => "index"
  | .ifThenElse => "if"
  | .letIn => "let"
  | .caseOf => "case"
  | .lambda => "lambda"
  | .tryCatch => "try"
  | .doBlock => "do"
  | .map => "map"
  | .filter => "filter"
  | .fold => "fold"
  | .annotate => "annotate"

/-- The kind of expression with a name. -/
def ofName? (name : Text) : Option ExprKind := all.find? fun k => k.name == name

end ExprKind

/-- The kinds of patterns. -/
inductive PatternKind where
  | wildcard | variable | literal | constructor | record | list | alias | or
deriving DecidableEq

namespace PatternKind

/-- All kinds of patterns. -/
def all : List PatternKind := [.wildcard, .variable, .literal, .constructor, .record, .list, .alias, .or]

/-- The name of a kind of pattern. -/
def name : PatternKind → Text
  | .wildcard => "wildcard"
  | .variable => "variable"
  | .literal => "literal"
  | .constructor => "constructor"
  | .record => "record"
  | .list => "list"
  | .alias => "as"
  | .or => "or"

/-- The kind of pattern with a name. -/
def ofName? (name : Text) : Option PatternKind := all.find? fun k => k.name == name

end PatternKind

/-- The kinds of statements in a do block. -/
inductive StatementKind where
  | bind | effect
deriving DecidableEq

namespace StatementKind

/-- All kinds of statements. -/
def all : List StatementKind := [.bind, .effect]

/-- The name of a kind of statement. -/
def name : StatementKind → Text
  | .bind => "bind"
  | .effect => "expr"

/-- The kind of statement with a name. -/
def ofName? (name : Text) : Option StatementKind := all.find? fun k => k.name == name

end StatementKind

/-- The kinds of declarations. -/
inductive DeclKind where
  | const | function
deriving DecidableEq

namespace DeclKind

/-- All kinds of declarations. -/
def all : List DeclKind := [.const, .function]

/-- The name of a kind of declaration. -/
def name : DeclKind → Text
  | .const => "const"
  | .function => "function"

/-- The kind of declaration with a name. -/
def ofName? (name : Text) : Option DeclKind := all.find? fun k => k.name == name

end DeclKind

end ExprScript
