import ExprScript.Json.Basic
import ExprScript.Tree.Kind

/-!
# Expression trees

`Expr`, `Pattern`, `Statement`, `Decl` and `Module` are the trees that are rendered. The types have room for every
tree that another tool may hand over: operators are held by name, a literal pattern holds any expression, lists of
arms and alternatives may be empty, and a node of no known kind is kept as it came (`foreign`). Decoding gives only
trees without such oddities.
-/

namespace ExprScript

/-- A parameter with its type, if it has one. -/
structure Param where
  name : Text
  type : Option Text
deriving DecidableEq

mutual

/-- An expression. -/
inductive Expr where
  | int (value : Number)
  | string (value : Text)
  | bool (value : Bool)
  | list (elements : List Expr)
  | record (fields : List NamedExpr)
  | variable (name : Text)
  | qualified (space : Option Text) (name : Text)
  | binary (op : Text) (left right : Expr)
  | unary (op : Text) (operand : Expr)
  | call (fn : Expr) (args : List Expr)
  | construct (constructor : Text) (args : List Expr)
  | recordCreate (recordType : Text) (fields : List NamedExpr)
  | recordUpdate (target : Expr) (updates : List NamedExpr)
  | field (target : Expr) (name : Text)
  | index (target index : Expr)
  | ifThenElse (condition yes no : Expr)
  | letIn (bindings : List NamedExpr) (body : Expr)
  | caseOf (scrutinee : Expr) (arms : List Arm)
  | lambda (params : List Param) (body : Expr)
  | tryCatch (body : Expr) (handlers : List Arm)
  | doBlock (statements : List Statement) (result : Expr)
  | map (collection : Expr) (iterator : Text) (transform : Expr)
  | filter (collection : Expr) (iterator : Text) (predicate : Expr)
  | fold (collection initial : Expr) (accumulator iterator : Text) (transform : Expr)
  | annotate (expr : Expr) (type : Text)
  | foreign (node : Json)

/-- A named expression: a field of a record or a binding of a let. -/
structure NamedExpr where
  name : Text
  value : Expr

/-- An arm of a case, or a handler of a try. -/
structure Arm where
  pattern : Pattern
  guard : Option Expr
  body : Expr

/-- A statement of a do block. -/
inductive Statement where
  | bind (name : Text) (value : Expr)
  | effect (expr : Expr)
  | foreign (node : Json)

/-- A pattern. -/
inductive Pattern where
  | wildcard
  | variable (name : Text)
  | literal (value : Expr)
  | constructor (constructor : Text) (args : List Pattern)
  | record (fields : List NamedPattern)
  | list (elements : List Pattern) (tail : Option Pattern)
  | alias (name : Text) (pattern : Pattern)
  | or (alternatives : List Pattern)
  | foreign (node : Json)

/-- A pattern for a field of a record. -/
structure NamedPattern where
  name : Text
  pattern : Pattern

end

/-- A declaration of a module. -/
inductive Decl where
  | const (name : Text) (type : Option Text) (value : Expr) (exported : Bool)
  | function (name : Text) (params : List Param) (returnType : Option Text) (body : Expr) (exported : Bool)
  | foreign (node : Json)

/-- A module. -/
structure Module where
  decls : List Decl

/-- The kind of an expression; a foreign node has none. -/
def Expr.kind? : Expr → Option ExprKind
  | .int .. => some .int
  | .string .. => some .string
  | .bool .. => some .bool
  | .list .. => some .list
  | .record .. => some .record
  | .variable .. => some .variable
  | .qualified .. => some .qualified
  | .binary .. => some .binary
  | .unary .. => some .unary
  | .call .. => some .call
  | .construct .. => some .construct
  | .recordCreate .. => some .recordCreate
  | .recordUpdate .. => some .recordUpdate
  | .field .. => some .field
  | .index .. => some .index
  | .ifThenElse .. => some .ifThenElse
  | .letIn .. => some .letIn
  | .caseOf .. => some .caseOf
  | .lambda .. => some .lambda
  | .tryCatch .. => some .tryCatch
  | .doBlock .. => some .doBlock
  | .map .. => some .map
  | .filter .. => some .filter
  | .fold .. => some .fold
  | .annotate .. => some .annotate
  | .foreign .. => none

end ExprScript
