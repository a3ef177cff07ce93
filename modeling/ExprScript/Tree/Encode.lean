import ExprScript.Tree.Basic
import ExprScript.Tree.Node

/-!
# From trees to JSON

`Expr.encode`, `Pattern.encode`, `Decl.encode` and `Module.encode` write a tree node by node; what is absent is left
out, and a foreign node is written as it came.
-/

namespace ExprScript

/-- A parameter. Unlike an absent type, an empty one is written. -/
def Param.encode (p : Param) : Json :=
  Node.ofParts [("name", some (.string p.name)), ("type", p.type.map .string)]

mutual

/-- An expression as JSON. -/
def Expr.encode : Expr → Json
  | .int value => Node.int (Json.number value)
  | .string value => Node.string (Json.string value)
  | .bool value => Node.bool (Json.bool value)
  | .list elements => Node.list (Expr.encodeAll elements)
  | .record fields => Node.record (.array (NamedExpr.encodeAll fields))
  | .variable name => Node.var (Json.string name)
  | .qualified space name => Node.qualified (space.map .string) (Json.string name)
  | .binary op left right => Node.binary (Json.string op) left.encode right.encode
  | .unary op operand => Node.unary (Json.string op) operand.encode
  | .call fn args => Node.call fn.encode (Expr.encodeAll args)
  | .construct constructor args => Node.construct (Json.string constructor) (Expr.encodeAll args)
  | .recordCreate recordType fields => Node.recordCreate (Json.string recordType) (.array (NamedExpr.encodeAll fields))
  | .recordUpdate target updates => Node.recordUpdate target.encode (.array (NamedExpr.encodeAll updates))
  | .field target name => Node.field target.encode (Json.string name)
  | .index target index => Node.index target.encode index.encode
  | .ifThenElse condition yes no => Node.ifThenElse condition.encode yes.encode no.encode
  | .letIn bindings body => Node.letIn (Json.array (NamedExpr.encodeAll bindings)) body.encode
  | .caseOf scrutinee arms => Node.caseOf scrutinee.encode (Arm.encodeAll arms)
  | .lambda params body => Node.lambda (Json.array (params.map Param.encode)) body.encode
  | .tryCatch body handlers => Node.tryCatch body.encode (Arm.encodeAll handlers)
  | .doBlock statements result => Node.doBlock (Json.array (Statement.encodeAll statements)) result.encode
  | .map collection iterator transform => Node.map collection.encode (Json.string iterator) transform.encode
  | .filter collection iterator predicate => Node.filter collection.encode (Json.string iterator) predicate.encode
  | .fold collection initial accumulator iterator transform =>
    Node.fold collection.encode initial.encode (Json.string accumulator) (Json.string iterator) transform.encode
  | .annotate expr type => Node.annotate expr.encode (Json.string type)
  | .foreign node => node

/-- A list of expressions as JSON. -/
def Expr.encodeAll : List Expr → List Json
  | [] => []
  | e :: rest => e.encode :: Expr.encodeAll rest

/-- Named expressions as JSON. -/
def NamedExpr.encodeAll : List NamedExpr → List Json
  | [] => []
  | ⟨name, value⟩ :: rest => Node.named (Json.string name) value.encode :: NamedExpr.encodeAll rest

/-- Arms as JSON. -/
def Arm.encodeAll : List Arm → List Json
  | [] => []
  | ⟨pattern, none, body⟩ :: rest => Node.arm pattern.encode body.encode none :: Arm.encodeAll rest
  | ⟨pattern, some guard, body⟩ :: rest => Node.arm pattern.encode body.encode guard.encode :: Arm.encodeAll rest

/-- Statements as JSON. -/
def Statement.encodeAll : List Statement → List Json
  | [] => []
  | .bind name value :: rest => Node.bind (Json.string name) value.encode :: Statement.encodeAll rest
  | .effect expr :: rest => Node.effect expr.encode :: Statement.encodeAll rest
  | .foreign node :: rest => node :: Statement.encodeAll rest

/-- A pattern as JSON. -/
def Pattern.encode : Pattern → Json
  | .wildcard => Node.wildcard
  | .variable name => Node.variablePattern (Json.string name)
  | .literal value => Node.literalPattern value.encode
  | .constructor constructor args => Node.constructorPattern (Json.string constructor) (Pattern.encodeAll args)
  | .record fields => Node.recordPattern (.array (NamedPattern.encodeAll fields))
  | .list elements none => Node.listPattern (Json.array (Pattern.encodeAll elements)) none
  | .list elements (some tail) => Node.listPattern (Json.array (Pattern.encodeAll elements)) tail.encode
  | .alias name pattern => Node.aliasPattern (Json.string name) pattern.encode
  | .or alternatives => Node.orPattern (Pattern.encodeAll alternatives)
  | .foreign node => node

/-- A list of patterns as JSON. -/
def Pattern.encodeAll : List Pattern → List Json
  | [] => []
  | p :: rest => p.encode :: Pattern.encodeAll rest

/-- The fields of a record pattern as JSON. -/
def NamedPattern.encodeAll : List NamedPattern → List Json
  | [] => []
  | ⟨name, pattern⟩ :: rest => Node.namedPattern (Json.string name) pattern.encode :: NamedPattern.encodeAll rest

end

/-- A declaration as JSON. -/
def Decl.encode : Decl → Json
  | .const name type value exported =>
    Node.const (Json.string name) (type.map .string) value.encode (Json.bool exported)
  | .function name params returnType body exported =>
    Node.function (Json.string name) (Json.array (params.map Param.encode)) (returnType.map .string) body.encode
      (Json.bool exported)
  | .foreign node => node

/-- A module as JSON. -/
def Module.encode (m : Module) : Json := Node.ofParts [("decls", some (.array (m.decls.map Decl.encode)))]

end ExprScript
