import ExprScript.Tree.Basic
import ExprScript.Tree.DecodeError
import ExprScript.Tree.Operator

/-!
# From JSON to trees

`Decode.expr`, `Decode.pattern`, `Decode.decl` and `Decode.module` read a tree from what was found at a place, which
may be nothing. A node is an object whose member `kind` says which further members are read, and in which order; all
others are ignored. The first fault in that order is the error, with its path from the place where decoding started.

The readers named `…At` take a name and the members of an object, and read the member with that name. Those named
`…Items` read the elements of an array, the first of which has index `i`.
-/

namespace ExprScript.Decode

open Decoded

/-! ## Values without nodes in them -/

/-- Reads a string. -/
def text : Found → Decoded Text
  | .value (.string t) => .ok t
  | found => fail (.expected .string found)

/-- Reads a member that is a string. -/
def textAt (name : Text) (ms : List Member) : Decoded Text := within (.member name) (text (Json.find name ms))

/-- Reads an optional member that is a string. -/
def optionalTextAt (name : Text) (ms : List Member) : Decoded (Option Text) :=
  if (Json.find name ms).isAbsent then .ok none else some <$> textAt name ms

/-- Reads a boolean. -/
def bool : Found → Decoded Bool
  | .value (.bool b) => .ok b
  | found => fail (.expected .boolean found)

/-- Reads a member that is a boolean. -/
def boolAt (name : Text) (ms : List Member) : Decoded Bool := within (.member name) (bool (Json.find name ms))

/-- Reads an optional member that is a boolean. -/
def optionalBoolAt (name : Text) (ms : List Member) : Decoded (Option Bool) :=
  if (Json.find name ms).isAbsent then .ok none else some <$> boolAt name ms

/-- Reads an integer. -/
def integer : Found → Decoded Number
  | .value (.number x) => if x.isInteger then .ok x else fail (.notInteger x)
  | found => fail (.expected .number found)

/-- Reads a member that is an integer. -/
def integerAt (name : Text) (ms : List Member) : Decoded Number := within (.member name) (integer (Json.find name ms))

/-- Reads the name of a binary operator. -/
def binaryOp (found : Found) : Decoded Text := do
  let op ← text found
  if (BinaryOp.ofName? op).isSome then .ok op else fail (.unknownBinary op)

/-- Reads the name of a unary operator. -/
def unaryOp (found : Found) : Decoded Text := do
  let op ← text found
  if (UnaryOp.ofName? op).isSome then .ok op else fail (.unknownUnary op)

/-- Reads a parameter. -/
def param : Found → Decoded Param
  | .value (.object ms) => do
    let name ← textAt "name" ms
    let type ← optionalTextAt "type" ms
    return ⟨name, type⟩
  | found => fail (.expected .object found)

/-- Reads the elements of an array of parameters. -/
def paramItems (i : Nat) : List Json → Decoded (List Param)
  | [] => .ok []
  | j :: rest => do
    let p ← within (.index i) (param (.value j))
    let ps ← paramItems (i + 1) rest
    return p :: ps

/-- Reads an array of parameters. -/
def params : Found → Decoded (List Param)
  | .value (.array items) => paramItems 0 items
  | found => fail (.expected .array found)

/-- Reads a member that is an array of parameters. -/
def paramsAt (name : Text) (ms : List Member) : Decoded (List Param) :=
  within (.member name) (params (Json.find name ms))

/-- An expression that may stand in a literal pattern. -/
def literal (e : Expr) : Decoded Expr :=
  match e.kind? with
  | none | some .int | some .string | some .bool => .ok e
  | some kind => within (.member "kind") (fail (.notLiteral kind))

/-! ## Sizes, for the recursion on found values -/

/-- Lists have a positive size. -/
theorem sizeOf_list_pos {α : Type} [SizeOf α] (xs : List α) : 0 < sizeOf xs := by
  cases xs with
  | nil => simp
  | cons x rest =>
    rw [List.cons.sizeOf_spec]
    omega

/-- The value of a member is smaller than the members. -/
theorem sizeOf_get?_lt {name : Text} {j : Json} {ms : List Member} (h : Json.get? name ms = some j) :
    sizeOf j < sizeOf ms := by
  induction ms with
  | nil => simp [Json.get?] at h
  | cons m rest ih =>
    rw [Json.get?] at h
    rw [List.cons.sizeOf_spec]
    split at h
    · obtain ⟨_, value⟩ := m
      obtain rfl : value = j := by simpa using h
      rw [Member.mk.sizeOf_spec]
      omega
    · have := ih h
      omega

/-- What is found among members is no larger than they are. -/
theorem sizeOf_find_le (name : Text) (ms : List Member) : sizeOf (Json.find name ms) ≤ sizeOf ms := by
  have pos := sizeOf_list_pos ms
  unfold Json.find
  split
  · rename_i j h
    have := sizeOf_get?_lt h
    rw [Found.value.sizeOf_spec]
    omega
  · split
    · rw [Found.inherited.sizeOf_spec]
      omega
    · rw [Found.nothing.sizeOf_spec]
      omega

/-- An element of a list is smaller than the list. -/
theorem sizeOf_value_lt_cons (j : Json) (rest : List Json) : sizeOf (Found.value j) < sizeOf (j :: rest) := by
  have pos := sizeOf_list_pos rest
  rw [Found.value.sizeOf_spec, List.cons.sizeOf_spec]
  omega

/-! ## Expressions and patterns -/

mutual

/-- Reads an expression. -/
def expr (found : Found) : Decoded Expr :=
  match found with
  | .value (.object ms) => do
    let kind ← textAt "kind" ms
    match ExprKind.ofName? kind with
    | some .int => return .int (← integerAt "value" ms)
    | some .string => return .string (← textAt "value" ms)
    | some .bool => return .bool (← boolAt "value" ms)
    | some .list => return .list (← exprsAt "elements" ms)
    | some .record => return .record (← namedExprsAt "fields" ms)
    | some .variable => return .variable (← textAt "name" ms)
    | some .qualified => return .qualified (← optionalTextAt "namespace" ms) (← textAt "name" ms)
    | some .binary =>
      let op ← within (.member "op") (binaryOp (Json.find "op" ms))
      return .binary op (← exprAt "left" ms) (← exprAt "right" ms)
    | some .unary =>
      let op ← within (.member "op") (unaryOp (Json.find "op" ms))
      return .unary op (← exprAt "operand" ms)
    | some .call => return .call (← exprAt "fn" ms) (← exprsAt "args" ms)
    | some .construct => return .construct (← textAt "constructor" ms) (← exprsAt "args" ms)
    | some .recordCreate => return .recordCreate (← textAt "recordType" ms) (← namedExprsAt "fields" ms)
    | some .recordUpdate => return .recordUpdate (← exprAt "target" ms) (← namedExprsAt "updates" ms)
    | some .field => return .field (← exprAt "target" ms) (← textAt "name" ms)
    | some .index => return .index (← exprAt "target" ms) (← exprAt "index" ms)
    | some .ifThenElse => return .ifThenElse (← exprAt "condition" ms) (← exprAt "then" ms) (← exprAt "else" ms)
    | some .letIn => return .letIn (← namedExprsAt "bindings" ms) (← exprAt "body" ms)
    | some .caseOf => return .caseOf (← exprAt "scrutinee" ms) (← armsAt "arms" ms)
    | some .lambda => return .lambda (← paramsAt "params" ms) (← exprAt "body" ms)
    | some .tryCatch => return .tryCatch (← exprAt "body" ms) (← armsAt "handlers" ms)
    | some .doBlock => return .doBlock (← statementsAt "statements" ms) (← exprAt "result" ms)
    | some .map => return .map (← exprAt "collection" ms) (← textAt "iterator" ms) (← exprAt "transform" ms)
    | some .filter => return .filter (← exprAt "collection" ms) (← textAt "iterator" ms) (← exprAt "predicate" ms)
    | some .fold =>
      return .fold (← exprAt "collection" ms) (← exprAt "initial" ms) (← textAt "accumulator" ms)
        (← textAt "iterator" ms) (← exprAt "transform" ms)
    | some .annotate => return .annotate (← exprAt "expr" ms) (← textAt "annotation" ms)
    | none => within (.member "kind") (fail (.unknownKind .expression kind))
  | found => fail (.expected .object found)
termination_by sizeOf found

/-- Reads a member that is an expression. -/
def exprAt (name : Text) (ms : List Member) : Decoded Expr := within (.member name) (expr (Json.find name ms))
termination_by sizeOf ms + 1
decreasing_by have := sizeOf_find_le name ms; omega

/-- Reads the elements of an array of expressions. -/
def exprItems (i : Nat) (items : List Json) : Decoded (List Expr) :=
  match items with
  | [] => .ok []
  | j :: rest => do
    let e ← within (.index i) (expr (.value j))
    let es ← exprItems (i + 1) rest
    return e :: es
termination_by sizeOf items
decreasing_by
  · exact sizeOf_value_lt_cons j rest
  · decreasing_tactic

/-- Reads an array of expressions. -/
def exprs (found : Found) : Decoded (List Expr) :=
  match found with
  | .value (.array items) => exprItems 0 items
  | found => fail (.expected .array found)
termination_by sizeOf found

/-- Reads a member that is an array of expressions. -/
def exprsAt (name : Text) (ms : List Member) : Decoded (List Expr) :=
  within (.member name) (exprs (Json.find name ms))
termination_by sizeOf ms + 1
decreasing_by have := sizeOf_find_le name ms; omega

/-- Reads a named expression. -/
def namedExpr (found : Found) : Decoded NamedExpr :=
  match found with
  | .value (.object ms) => do
    let name ← textAt "name" ms
    let value ← exprAt "value" ms
    return ⟨name, value⟩
  | found => fail (.expected .object found)
termination_by sizeOf found

/-- Reads the elements of an array of named expressions. -/
def namedExprItems (i : Nat) (items : List Json) : Decoded (List NamedExpr) :=
  match items with
  | [] => .ok []
  | j :: rest => do
    let e ← within (.index i) (namedExpr (.value j))
    let es ← namedExprItems (i + 1) rest
    return e :: es
termination_by sizeOf items
decreasing_by
  · exact sizeOf_value_lt_cons j rest
  · decreasing_tactic

/-- Reads an array of named expressions. -/
def namedExprs (found : Found) : Decoded (List NamedExpr) :=
  match found with
  | .value (.array items) => namedExprItems 0 items
  | found => fail (.expected .array found)
termination_by sizeOf found

/-- Reads a member that is an array of named expressions. -/
def namedExprsAt (name : Text) (ms : List Member) : Decoded (List NamedExpr) :=
  within (.member name) (namedExprs (Json.find name ms))
termination_by sizeOf ms + 1
decreasing_by have := sizeOf_find_le name ms; omega

/-- Reads an arm. -/
def arm (found : Found) : Decoded Arm :=
  match found with
  | .value (.object ms) => do
    let pattern ← patternAt "pattern" ms
    let body ← exprAt "body" ms
    if (Json.find "guard" ms).isAbsent then return ⟨pattern, none, body⟩
    else return ⟨pattern, some (← exprAt "guard" ms), body⟩
  | found => fail (.expected .object found)
termination_by sizeOf found

/-- Reads the elements of an array of arms. -/
def armItems (i : Nat) (items : List Json) : Decoded (List Arm) :=
  match items with
  | [] => .ok []
  | j :: rest => do
    let a ← within (.index i) (arm (.value j))
    let as ← armItems (i + 1) rest
    return a :: as
termination_by sizeOf items
decreasing_by
  · exact sizeOf_value_lt_cons j rest
  · decreasing_tactic

/-- Reads a non-empty array of arms. -/
def arms (found : Found) : Decoded (List Arm) :=
  match found with
  | .value (.array items) => if items.isEmpty then fail .noArms else armItems 0 items
  | found => fail (.expected .array found)
termination_by sizeOf found

/-- Reads a member that is a non-empty array of arms. -/
def armsAt (name : Text) (ms : List Member) : Decoded (List Arm) := within (.member name) (arms (Json.find name ms))
termination_by sizeOf ms + 1
decreasing_by have := sizeOf_find_le name ms; omega

/-- Reads a statement. -/
def statement (found : Found) : Decoded Statement :=
  match found with
  | .value (.object ms) => do
    let kind ← textAt "kind" ms
    match StatementKind.ofName? kind with
    | some .bind => return .bind (← textAt "name" ms) (← exprAt "value" ms)
    | some .effect => return .effect (← exprAt "expr" ms)
    | none => within (.member "kind") (fail (.unknownKind .statement kind))
  | found => fail (.expected .object found)
termination_by sizeOf found

/-- Reads the elements of an array of statements. -/
def statementItems (i : Nat) (items : List Json) : Decoded (List Statement) :=
  match items with
  | [] => .ok []
  | j :: rest => do
    let s ← within (.index i) (statement (.value j))
    let ss ← statementItems (i + 1) rest
    return s :: ss
termination_by sizeOf items
decreasing_by
  · exact sizeOf_value_lt_cons j rest
  · decreasing_tactic

/-- Reads an array of statements. -/
def statements (found : Found) : Decoded (List Statement) :=
  match found with
  | .value (.array items) => statementItems 0 items
  | found => fail (.expected .array found)
termination_by sizeOf found

/-- Reads a member that is an array of statements. -/
def statementsAt (name : Text) (ms : List Member) : Decoded (List Statement) :=
  within (.member name) (statements (Json.find name ms))
termination_by sizeOf ms + 1
decreasing_by have := sizeOf_find_le name ms; omega

/-- Reads a pattern. -/
def pattern (found : Found) : Decoded Pattern :=
  match found with
  | .value (.object ms) => do
    let kind ← textAt "kind" ms
    match PatternKind.ofName? kind with
    | some .wildcard => return .wildcard
    | some .variable => return .variable (← textAt "name" ms)
    | some .literal => return .literal (← literalAt "value" ms)
    | some .constructor => return .constructor (← textAt "constructor" ms) (← patternsAt "args" ms)
    | some .record => return .record (← namedPatternsAt "fields" ms)
    | some .list =>
      let elements ← patternsAt "elements" ms
      if (Json.find "tail" ms).isAbsent then return .list elements none
      else return .list elements (some (← patternAt "tail" ms))
    | some .alias => return .alias (← textAt "name" ms) (← patternAt "pattern" ms)
    | some .or =>
      let alternatives ← patternsAt "alternatives" ms
      if alternatives.isEmpty then within (.member "alternatives") (fail .noAlternatives)
      else return .or alternatives
    | none => within (.member "kind") (fail (.unknownKind .pattern kind))
  | found => fail (.expected .object found)
termination_by sizeOf found

/-- Reads a member that is a literal. -/
def literalAt (name : Text) (ms : List Member) : Decoded Expr :=
  within (.member name) (expr (Json.find name ms) >>= literal)
termination_by sizeOf ms + 1
decreasing_by have := sizeOf_find_le name ms; omega

/-- Reads a member that is a pattern. -/
def patternAt (name : Text) (ms : List Member) : Decoded Pattern :=
  within (.member name) (pattern (Json.find name ms))
termination_by sizeOf ms + 1
decreasing_by have := sizeOf_find_le name ms; omega

/-- Reads the elements of an array of patterns. -/
def patternItems (i : Nat) (items : List Json) : Decoded (List Pattern) :=
  match items with
  | [] => .ok []
  | j :: rest => do
    let p ← within (.index i) (pattern (.value j))
    let ps ← patternItems (i + 1) rest
    return p :: ps
termination_by sizeOf items
decreasing_by
  · exact sizeOf_value_lt_cons j rest
  · decreasing_tactic

/-- Reads an array of patterns. -/
def patterns (found : Found) : Decoded (List Pattern) :=
  match found with
  | .value (.array items) => patternItems 0 items
  | found => fail (.expected .array found)
termination_by sizeOf found

/-- Reads a member that is an array of patterns. -/
def patternsAt (name : Text) (ms : List Member) : Decoded (List Pattern) :=
  within (.member name) (patterns (Json.find name ms))
termination_by sizeOf ms + 1
decreasing_by have := sizeOf_find_le name ms; omega

/-- Reads a field of a record pattern. -/
def namedPattern (found : Found) : Decoded NamedPattern :=
  match found with
  | .value (.object ms) => do
    let name ← textAt "name" ms
    let pattern ← patternAt "pattern" ms
    return ⟨name, pattern⟩
  | found => fail (.expected .object found)
termination_by sizeOf found

/-- Reads the elements of an array of fields of a record pattern. -/
def namedPatternItems (i : Nat) (items : List Json) : Decoded (List NamedPattern) :=
  match items with
  | [] => .ok []
  | j :: rest => do
    let p ← within (.index i) (namedPattern (.value j))
    let ps ← namedPatternItems (i + 1) rest
    return p :: ps
termination_by sizeOf items
decreasing_by
  · exact sizeOf_value_lt_cons j rest
  · decreasing_tactic

/-- Reads an array of fields of a record pattern. -/
def namedPatterns (found : Found) : Decoded (List NamedPattern) :=
  match found with
  | .value (.array items) => namedPatternItems 0 items
  | found => fail (.expected .array found)
termination_by sizeOf found

/-- Reads a member that is an array of fields of a record pattern. -/
def namedPatternsAt (name : Text) (ms : List Member) : Decoded (List NamedPattern) :=
  within (.member name) (namedPatterns (Json.find name ms))
termination_by sizeOf ms + 1
decreasing_by have := sizeOf_find_le name ms; omega

end

/-! ## Declarations and modules -/

/-- Reads a declaration. It is exported unless it says otherwise. -/
def decl : Found → Decoded Decl
  | .value (.object ms) => do
    let kind ← textAt "kind" ms
    let exported := (← optionalBoolAt "exported" ms).getD true
    match DeclKind.ofName? kind with
    | some .const =>
      return .const (← textAt "name" ms) (← optionalTextAt "type" ms) (← exprAt "value" ms) exported
    | some .function =>
      return .function (← textAt "name" ms) (← paramsAt "params" ms) (← optionalTextAt "returnType" ms)
        (← exprAt "body" ms) exported
    | none => within (.member "kind") (fail (.unknownKind .declaration kind))
  | found => fail (.expected .object found)

/-- Reads the elements of an array of declarations. -/
def declItems (i : Nat) : List Json → Decoded (List Decl)
  | [] => .ok []
  | j :: rest => do
    let d ← within (.index i) (decl (.value j))
    let ds ← declItems (i + 1) rest
    return d :: ds

/-- Reads an array of declarations. -/
def decls : Found → Decoded (List Decl)
  | .value (.array items) => declItems 0 items
  | found => fail (.expected .array found)

/-- Reads a module. -/
def module : Found → Decoded Module
  | .value (.object ms) => return ⟨← within (.member "decls") (decls (Json.find "decls" ms))⟩
  | found => fail (.expected .object found)

end ExprScript.Decode
