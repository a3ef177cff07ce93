import ExprScript.Number.Shortest
import ExprScript.Text.Quoted
import ExprScript.Tree.Basic

/-!
# Trees in source notation

One-line texts of expressions and patterns, for the notes of error messages.

- `Expr.source?` abbreviates control forms. A foreign node has no text: inside a larger text it reads `undefined`, and
  in a list it leaves its place empty;
- `Pattern.source?` is the same for patterns;
- `Pattern.vars` lists the names that a pattern binds, in binding order.
-/

namespace ExprScript

/-- The text of a part inside a larger text. -/
def inText (part : Option Text) : Text := part.getD "undefined"

/-- The texts of the parts of a list, separated. -/
def inList (separator : Text) (parts : List (Option Text)) : Text :=
  Text.join separator (parts.map fun part => part.getD [])

/-- The names of named expressions, separated by commas. -/
def joinedNames (fields : List NamedExpr) : Text := Text.join ", " (fields.map NamedExpr.name)

mutual

/-- An expression in source notation. -/
def Expr.source? : Expr → Option Text
  | .int value => some value.text
  | .string value => some (Quoted.encode value)
  | .bool value => some (if value then "true" else "false")
  | .list elements => some ("[" ++ inList ", " (Expr.sources elements) ++ "]")
  | .record fields => some ("\x7b " ++ Text.join ", " (NamedExpr.sources fields) ++ " \x7d")
  | .variable name => some name
  | .qualified space name =>
    match nonEmpty? space with
    | some s => some (s ++ "." ++ name)
    | none => some name
  | .binary op left right => some (op ++ "(" ++ inText left.source? ++ ", " ++ inText right.source? ++ ")")
  | .unary op operand => some (op ++ "(" ++ inText operand.source? ++ ")")
  | .call fn args => some (inText fn.source? ++ "(" ++ inList ", " (Expr.sources args) ++ ")")
  | .construct constructor args => some (constructor ++ "(" ++ inList ", " (Expr.sources args) ++ ")")
  | .recordCreate recordType fields => some (recordType ++ " \x7b " ++ joinedNames fields ++ " \x7d")
  | .recordUpdate target updates => some ("\x7b " ++ inText target.source? ++ " | " ++ joinedNames updates ++ " \x7d")
  | .field target name => some (inText target.source? ++ "." ++ name)
  | .index target index => some (inText target.source? ++ "[" ++ inText index.source? ++ "]")
  | .ifThenElse condition _ _ => some ("if " ++ inText condition.source? ++ " then ... else ...")
  | .letIn bindings _ => some ("let " ++ joinedNames bindings ++ " in ...")
  | .caseOf scrutinee _ => some ("case " ++ inText scrutinee.source? ++ " of ...")
  | .lambda params _ => some ("\\" ++ Text.join " " (params.map Param.name) ++ " -> ...")
  | .tryCatch _ _ => some "try ..."
  | .doBlock _ _ => some "do ..."
  | .map collection iterator _ => some ("map " ++ iterator ++ " in " ++ inText collection.source?)
  | .filter collection iterator _ => some ("filter " ++ iterator ++ " in " ++ inText collection.source?)
  | .fold collection _ accumulator iterator _ =>
    some ("fold " ++ accumulator ++ ", " ++ iterator ++ " in " ++ inText collection.source?)
  | .annotate expr type => some (inText expr.source? ++ " : " ++ type)
  | .foreign _ => none

/-- The texts of a list of expressions. -/
def Expr.sources : List Expr → List (Option Text)
  | [] => []
  | e :: rest => e.source? :: Expr.sources rest

/-- The texts of the fields of a record. -/
def NamedExpr.sources : List NamedExpr → List Text
  | [] => []
  | ⟨name, value⟩ :: rest => (name ++ " = " ++ inText value.source?) :: NamedExpr.sources rest

end

mutual

/-- A pattern in source notation. -/
def Pattern.source? : Pattern → Option Text
  | .wildcard => some "_"
  | .variable name => some name
  | .literal value => value.source?
  | .constructor constructor args =>
    if args.isEmpty then some constructor
    else some (constructor ++ "(" ++ inList ", " (Pattern.sources args) ++ ")")
  | .record fields => some ("\x7b " ++ Text.join ", " (NamedPattern.sources fields) ++ " \x7d")
  | .list elements none => some ("[" ++ inList ", " (Pattern.sources elements) ++ "]")
  | .list elements (some tail) =>
    some ("[" ++ inList ", " (Pattern.sources elements ++ [some ("..." ++ inText tail.source?)]) ++ "]")
  | .alias name pattern => some (inText pattern.source? ++ " as " ++ name)
  | .or alternatives => some (inList " | " (Pattern.sources alternatives))
  | .foreign _ => none

/-- The texts of a list of patterns. -/
def Pattern.sources : List Pattern → List (Option Text)
  | [] => []
  | p :: rest => p.source? :: Pattern.sources rest

/-- The texts of the fields of a record pattern. -/
def NamedPattern.sources : List NamedPattern → List Text
  | [] => []
  | ⟨name, pattern⟩ :: rest => (name ++ ": " ++ inText pattern.source?) :: NamedPattern.sources rest

end

mutual

/-- The names that a pattern binds, in binding order and with repetitions. -/
def Pattern.vars : Pattern → List Text
  | .wildcard => []
  | .variable name => [name]
  | .literal _ => []
  | .constructor _ args => Pattern.allVars args
  | .record fields => NamedPattern.allVars fields
  | .list elements none => Pattern.allVars elements
  | .list elements (some tail) => Pattern.allVars elements ++ tail.vars
  | .alias name pattern => name :: pattern.vars
  | .or alternatives => Pattern.allVars alternatives
  | .foreign _ => []

/-- The names that a list of patterns binds. -/
def Pattern.allVars : List Pattern → List Text
  | [] => []
  | p :: rest => p.vars ++ Pattern.allVars rest

/-- The names that the fields of a record pattern bind. -/
def NamedPattern.allVars : List NamedPattern → List Text
  | [] => []
  | ⟨_, pattern⟩ :: rest => pattern.vars ++ NamedPattern.allVars rest

end

end ExprScript
