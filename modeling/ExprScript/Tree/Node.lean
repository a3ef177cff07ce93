import ExprScript.Json.Basic
import ExprScript.Tree.Kind
import ExprScript.Tree.Operator

/-!
# Nodes in JSON form

Constructors for tools that produce trees: one for every kind of node and for the records that nodes hold. An argument
that is not given leaves its member out; what is given is kept as it is, even if it is null.
-/

namespace ExprScript

/-- The values that count as absent where a part of a node is optional: null, false, zero, a NaN and the empty text. -/
def Json.isBlankValue : Json → Bool
  | .null => true
  | .bool b => !b
  | .number x => x == Number.zero false || x == Number.zero true || x.isNaN
  | .string s => s.isEmpty
  | .array _ => false
  | .object _ => false

namespace Node

/-- A part of a node, unless it counts as absent. -/
def givenPart (part : Option Json) : Option Json := part.filter fun j => !j.isBlankValue

/-- The object with those of the members that are given. -/
def ofParts (parts : List (Text × Option Json)) : Json :=
  .object (parts.filterMap fun (name, part) => part.map fun value => ⟨name, value⟩)

/-- An expression node. -/
def expr (kind : ExprKind) (parts : List (Text × Option Json)) : Json :=
  ofParts (("kind", some (.string kind.name)) :: parts)

/-- A pattern node. -/
def pattern (kind : PatternKind) (parts : List (Text × Option Json)) : Json :=
  ofParts (("kind", some (.string kind.name)) :: parts)

/-- A statement node. -/
def statement (kind : StatementKind) (parts : List (Text × Option Json)) : Json :=
  ofParts (("kind", some (.string kind.name)) :: parts)

/-- A declaration node. -/
def decl (kind : DeclKind) (parts : List (Text × Option Json)) : Json :=
  ofParts (("kind", some (.string kind.name)) :: parts)

/-! ## Literals and names -/

/-- An integer. -/
def int (value : Option Json) : Json := expr .int [("value", value)]

/-- A string. -/
def string (value : Option Json) : Json := expr .string [("value", value)]

/-- A truth value. -/
def bool (value : Option Json) : Json := expr .bool [("value", value)]

/-- A list. -/
def list (elements : List Json) : Json := expr .list [("elements", some (.array elements))]

/-- A variable. -/
def var (name : Option Json) : Json := expr .variable [("name", name)]

/-- A name in a namespace. -/
def qualified (space name : Option Json) : Json := expr .qualified [("namespace", space), ("name", name)]

/-! ## Records -/

/-- A name with a value: a field of a record or a binding of a let. -/
def named (name value : Option Json) : Json := ofParts [("name", name), ("value", value)]

/-- The fields of a record, from a list of names with values. -/
def fields (entries : List (Text × Option Json)) : Json :=
  .array (entries.map fun (name, value) => named (some (.string name)) value)

/-- A record. -/
def record (entries : Json) : Json := expr .record [("fields", some entries)]

/-- A record of a named type. -/
def recordCreate (recordType : Option Json) (entries : Json) : Json :=
  expr .recordCreate [("recordType", recordType), ("fields", some entries)]

/-- A record with some fields replaced. -/
def recordUpdate (target : Option Json) (entries : Json) : Json :=
  expr .recordUpdate [("target", target), ("updates", some entries)]

/-- A field of a record. -/
def field (target name : Option Json) : Json := expr .field [("target", target), ("name", name)]

/-- An element of a list. -/
def index (target index : Option Json) : Json := expr .index [("target", target), ("index", index)]

/-! ## Operators and calls -/

/-- A binary operation. -/
def binary (op left right : Option Json) : Json := expr .binary [("op", op), ("left", left), ("right", right)]

/-- A binary operation with one of the known operators. -/
def operation (op : BinaryOp) (left right : Option Json) : Json := binary (some (.string op.name)) left right

/-- A unary operation. -/
def unary (op operand : Option Json) : Json := expr .unary [("op", op), ("operand", operand)]

/-- A call. -/
def call (fn : Option Json) (args : List Json) : Json := expr .call [("fn", fn), ("args", some (.array args))]

/-- A constructor application. -/
def construct (constructor : Option Json) (args : List Json) : Json :=
  expr .construct [("constructor", constructor), ("args", some (.array args))]

/-! ## Control forms -/

/-- A conditional. -/
def ifThenElse (condition yes no : Option Json) : Json :=
  expr .ifThenElse [("condition", condition), ("then", yes), ("else", no)]

/-- A let. -/
def letIn (bindings body : Option Json) : Json := expr .letIn [("bindings", bindings), ("body", body)]

/-- A case. -/
def caseOf (scrutinee : Option Json) (arms : List Json) : Json :=
  expr .caseOf [("scrutinee", scrutinee), ("arms", some (.array arms))]

/-- An arm of a case or a handler of a try. -/
def arm (pattern body guard : Option Json) : Json :=
  ofParts [("pattern", pattern), ("guard", givenPart guard), ("body", body)]

/-- A function value. -/
def lambda (params body : Option Json) : Json := expr .lambda [("params", params), ("body", body)]

/-- A parameter; an empty type is left out. -/
def param (name type : Option Json) : Json := ofParts [("name", name), ("type", givenPart type)]

/-- A try. -/
def tryCatch (body : Option Json) (handlers : List Json) : Json :=
  expr .tryCatch [("body", body), ("handlers", some (.array handlers))]

/-- A do block. -/
def doBlock (statements result : Option Json) : Json :=
  expr .doBlock [("statements", statements), ("result", result)]

/-- A statement that binds a name. -/
def bind (name value : Option Json) : Json := statement .bind [("name", name), ("value", value)]

/-- A statement that only evaluates. -/
def effect (body : Option Json) : Json := statement .effect [("expr", body)]

/-! ## Collections -/

/-- A map over a collection. -/
def map (collection iterator transform : Option Json) : Json :=
  expr .map [("collection", collection), ("iterator", iterator), ("transform", transform)]

/-- A filter of a collection. -/
def filter (collection iterator predicate : Option Json) : Json :=
  expr .filter [("collection", collection), ("iterator", iterator), ("predicate", predicate)]

/-- A fold of a collection. -/
def fold (collection initial accumulator iterator transform : Option Json) : Json :=
  expr .fold [("collection", collection), ("initial", initial), ("accumulator", accumulator), ("iterator", iterator),
    ("transform", transform)]

/-- An expression with a type annotation. -/
def annotate (body type : Option Json) : Json := expr .annotate [("expr", body), ("annotation", type)]

/-! ## Patterns -/

/-- The pattern that matches everything. -/
def wildcard : Json := pattern .wildcard []

/-- A pattern that binds a name. -/
def variablePattern (name : Option Json) : Json := pattern .variable [("name", name)]

/-- A literal pattern. -/
def literalPattern (value : Option Json) : Json := pattern .literal [("value", value)]

/-- A constructor pattern. -/
def constructorPattern (constructor : Option Json) (args : List Json) : Json :=
  pattern .constructor [("constructor", constructor), ("args", some (.array args))]

/-- A field of a record pattern. -/
def namedPattern (name inner : Option Json) : Json := ofParts [("name", name), ("pattern", inner)]

/-- The fields of a record pattern, from a list of names with patterns. -/
def patternFields (entries : List (Text × Option Json)) : Json :=
  .array (entries.map fun (name, inner) => namedPattern (some (.string name)) inner)

/-- A record pattern. -/
def recordPattern (entries : Json) : Json := pattern .record [("fields", some entries)]

/-- A list pattern. -/
def listPattern (elements tail : Option Json) : Json :=
  pattern .list [("elements", elements), ("tail", givenPart tail)]

/-- A pattern that also binds a name to what it matches. -/
def aliasPattern (name inner : Option Json) : Json := pattern .alias [("name", name), ("pattern", inner)]

/-- A choice between patterns. -/
def orPattern (alternatives : List Json) : Json := pattern .or [("alternatives", some (.array alternatives))]

/-! ## Declarations -/

/-- Whether a declaration is exported; it is unless something else is given. -/
def exportedOrDefault : Option Json → Json
  | none | some .null => .bool true
  | some j => j

/-- A constant declaration. -/
def const (name type value exported : Option Json) : Json :=
  decl .const [("name", name), ("type", type), ("value", value), ("exported", exportedOrDefault exported)]

/-- A function declaration. -/
def function (name params returnType body exported : Option Json) : Json :=
  decl .function [("name", name), ("params", params), ("returnType", returnType), ("body", body),
    ("exported", exportedOrDefault exported)]

end Node

end ExprScript
