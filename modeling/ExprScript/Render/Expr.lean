import ExprScript.Render.Chain
import ExprScript.Render.Error
import ExprScript.Render.Test
import ExprScript.Tree.Source

/-!
# Rendering expressions

- `Expr.code` renders an expression. Forms that are statements in the target language are wrapped in functions that
  are called on the spot, so every rendering is a value;
- `Pattern.matcher` compiles a pattern for a place in a value;
- `Arm.chain` renders arms. An arm without a guard whose condition reads `true` ends the chain, and the arms after it
  are not rendered.

Errors are those of the first part that cannot be rendered, in the order in which the parts are written below.

Texts have no bound here. Only compilation knows a longest text, and fails where a longer one would have to be made.
-/

namespace ExprScript

/-- The key of a field: bare if it is an identifier, quoted if not. -/
def keyText (name : Text) : Text := if name.isIdentifier then name else Quoted.encode name

/-- A parameter with its type. -/
def Param.text (p : Param) : Text :=
  match nonEmpty? p.type with
  | some type => p.name ++ ": " ++ type
  | none => p.name

/-- A parameter list. -/
def Param.list (params : List Param) : Text := Text.join ", " (params.map Param.text)

/-- A key with a value. -/
def entryCode (name : Text) (value : Code) : Code := .text (keyText name) ++ ": " ++ value

/-- A record with rendered values. -/
def recordCode (fields : List (Text × Code)) : Code :=
  if fields.isEmpty then "\x7b\x7d" else "\x7b " ++ entries fields ++ " \x7d"
where
  /-- Keys with values. -/
  entries (fields : List (Text × Code)) : Code :=
    Code.join ", " (fields.map fun (name, value) => entryCode name value)

/-- What stands before the replaced fields in a copy of a record. -/
def updateHead (target : Code) : Code := "(\x7b ..." ++ target ++ ", "

/-- A copy of a record with some fields replaced. -/
def updateCode (target : Code) (updates : List (Text × Code)) : Code :=
  if updates.isEmpty then "(\x7b ..." ++ target ++ " \x7d)"
  else updateHead target ++ recordCode.entries updates ++ " \x7d)"

/-- What stands before the index of an element. -/
def indexHead (target : Code) : Code := target ++ "["

/-- What stands before the arguments of a call. -/
def callHead (fn : Code) : Code := fn ++ "("

/-- What stands before the body of the function that a method of a collection is given. -/
def methodHead (collection : Code) (method params : Text) : Code :=
  collection ++ "." ++ method ++ "((" ++ params ++ ") => "

/-- A conditional. -/
def conditionalCode (condition yes no : Code) : Code :=
  .closure [.block (Chain.openingCode false condition) [Code.returnLine yes] "\x7d",
    .block " else \x7b" [Code.returnLine no] "\x7d", .lineEnd]

/-- A function value, in parentheses so that it stays one operand. -/
def lambdaCode (params : List Param) (body : Code) : Code :=
  .layout [.block ("((" ++ Param.list params ++ ") => \x7b") [Code.returnLine body] "\x7d)"]

/-- The end of a function that is applied to the scrutinee. -/
def applicationCode (scrutinee : Code) : Code := "\x7d)(" ++ scrutinee ++ ")"

/-- A function of the scrutinee that runs a chain, applied to it. -/
def caseCode (s : Style) (scrutinee : Code) (chain : Chain) : Code :=
  .layout [.block ("((" ++ s.matchVar ++ ": " ++ s.dialect.anyType ++ ") => \x7b") (chain.lines false)
    (applicationCode scrutinee)]

/-- A value, or if computing it fails, what a chain makes of the failure. -/
def tryCode (s : Style) (body : Code) (chain : Chain) : Code :=
  .closure [.block "try \x7b" [Code.returnLine body] "\x7d",
    .block (" catch (" ++ s.errorVar ++ ": " ++ s.dialect.anyType ++ ") \x7b") (chain.lines false) "\x7d", .lineEnd]

/-- The statement for a scrutinee that no arm matches. -/
def Style.noMatch (s : Style) : Code := s.dialect.noMatch.fill [.text s.matchVar]

/-- The statement for a failure that no handler matches. -/
def Style.rethrow (s : Style) : Code := "throw " ++ s.errorVar ++ ";"

/-- Whether code reads `true`. Only code without laid-out pieces does, so the indentation does not matter. -/
def Code.readsTrue (c : Code) : Bool := c.toText [] == "true"

/-- The matcher of a choice: it tries all alternatives, none of which may bind a variable. -/
def Matcher.choice (alternatives : List Pattern) (matchers : List Matcher) : Rendered Matcher :=
  match Pattern.allVars alternatives with
  | [] => .ok ⟨.any (matchers.map Matcher.test), []⟩
  | names => .error (.bindingAlternatives names.eraseDups (inText (Pattern.or alternatives).source?))

mutual

/-- Renders an expression. -/
def Expr.code (s : Style) : Expr → Rendered Code
  | .int value => return .text value.text
  | .string value => return .text (Quoted.encode value)
  | .bool value => return if value then "true" else "false"
  | .list elements => return "[" ++ Code.join ", " (← Expr.codes s elements) ++ "]"
  | .record fields => return recordCode (← NamedExpr.codes s fields)
  | .variable name => return .text name
  | .qualified space name =>
    match nonEmpty? space with
    | some space => return .text (space ++ "." ++ name)
    | none => return .text name
  | .binary op left right =>
    match BinaryOp.ofName? op with
    | some known => return (s.dialect.binary known).fill [← left.code s, ← right.code s]
    | none => .error (.unknownBinary op (inText (Expr.binary op left right).source?))
  | .unary op operand =>
    match UnaryOp.ofName? op with
    | some known => return (s.dialect.unary known).fill [← operand.code s]
    | none => .error (.unknownUnary op (inText (Expr.unary op operand).source?))
  | .call fn args => return callHead (← fn.code s) ++ Code.join ", " (← Expr.codes s args) ++ ")"
  | .construct constructor args =>
    return "new " ++ constructor ++ "(" ++ Code.join ", " (← Expr.codes s args) ++ ")"
  | .recordCreate recordType fields =>
    return "new " ++ recordType ++ "(" ++ recordCode (← NamedExpr.codes s fields) ++ ")"
  | .recordUpdate target updates => return updateCode (← target.code s) (← NamedExpr.codes s updates)
  | .field target name => return propertyCode (← target.code s) name
  | .index target index => return indexHead (← target.code s) ++ (← index.code s) ++ "]"
  | .ifThenElse condition yes no => return conditionalCode (← condition.code s) (← yes.code s) (← no.code s)
  | .letIn bindings body => do
    let bound ← NamedExpr.codes s bindings
    return .closure (Branch.lines ⟨bound, ← body.code s⟩)
  | .caseOf scrutinee arms =>
    return caseCode s (← scrutinee.code s) (← Arm.chain s (.text s.matchVar) s.noMatch arms)
  | .lambda params body => return lambdaCode params (← body.code s)
  | .tryCatch body handlers =>
    return tryCode s (← body.code s) (← Arm.chain s (.text s.errorVar) s.rethrow handlers)
  | .doBlock statements result => do
    let lines ← Statement.lines s statements
    return .closure (lines ++ [Code.returnLine (← result.code s)])
  | .map collection iterator transform =>
    return methodHead (← collection.code s) "map" iterator ++ (← transform.code s) ++ ")"
  | .filter collection iterator predicate =>
    return methodHead (← collection.code s) "filter" iterator ++ (← predicate.code s) ++ ")"
  | .fold collection initial accumulator iterator transform =>
    return methodHead (← collection.code s) "reduce" (accumulator ++ ", " ++ iterator) ++ (← transform.code s) ++
      ", " ++ (← initial.code s) ++ ")"
  | .annotate expr type => return "(" ++ (← expr.code s) ++ " as " ++ type ++ ")"
  | .foreign node => .error (.unhandled .expression node)

/-- Renders expressions. -/
def Expr.codes (s : Style) : List Expr → Rendered (List Code)
  | [] => .ok []
  | e :: rest => return (← e.code s) :: (← Expr.codes s rest)

/-- Renders named expressions. -/
def NamedExpr.codes (s : Style) : List NamedExpr → Rendered (List (Text × Code))
  | [] => .ok []
  | ⟨name, value⟩ :: rest => return (name, ← value.code s) :: (← NamedExpr.codes s rest)

/-- Renders the statements of a do block. -/
def Statement.lines (s : Style) : List Statement → Rendered (List Line)
  | [] => .ok []
  | .bind name value :: rest => return Code.constLine name (← value.code s) :: (← Statement.lines s rest)
  | .effect expr :: rest => return .line ((← expr.code s) ++ ";") :: (← Statement.lines s rest)
  | .foreign node :: _ => .error (.unhandled .statement node)

/-- Renders arms that are tried on `value`, with a statement for when none matches. -/
def Arm.chain (s : Style) (value fallback : Code) : List Arm → Rendered Chain
  | [] => .ok (.fallback fallback)
  | ⟨pattern, none, body⟩ :: rest => do
    let m ← pattern.matcher s .root
    let condition := m.condition s.dialect value
    let branch : Branch := ⟨m.bindingCodes s.dialect value, ← body.code s⟩
    if condition.readsTrue then return .otherwise branch
    else return .test condition none branch (← Arm.chain s value fallback rest)
  | ⟨pattern, some guard, body⟩ :: rest => do
    let m ← pattern.matcher s .root
    let guard ← guard.code s
    let branch : Branch := ⟨m.bindingCodes s.dialect value, ← body.code s⟩
    return .test (m.condition s.dialect value) (some guard) branch (← Arm.chain s value fallback rest)

/-- Compiles a pattern for a place. -/
def Pattern.matcher (s : Style) (place : Ref) : Pattern → Rendered Matcher
  | .wildcard => return ⟨.always, []⟩
  | .variable name => return ⟨.always, [(name, place)]⟩
  | .literal value => return ⟨.equals place value (← value.code s), []⟩
  | .constructor constructor args =>
    return Matcher.conjunction (.instanceOf place constructor) (← Pattern.argumentMatchers s place args.length 0 args)
  | .record fields => return Matcher.conjunction (.notNull place) (← NamedPattern.matchers s place fields)
  | .list elements none => do
    let parts ← Pattern.elementMatchers s place 0 elements
    return Matcher.conjunction (.isArray place) (parts ++ [⟨.lengthIs place elements.length, []⟩])
  | .list elements (some .wildcard) => do
    let parts ← Pattern.elementMatchers s place 0 elements
    return Matcher.conjunction (.isArray place)
      (parts ++ [⟨.lengthIs place elements.length, []⟩, ⟨.always, []⟩])
  | .list elements (some tail) => do
    let parts ← Pattern.elementMatchers s place 0 elements
    let rest ← tail.matcher s (.slice place elements.length)
    return Matcher.conjunction (.isArray place)
      (parts ++ [⟨.lengthAtLeast place elements.length, []⟩, rest])
  | .alias name pattern => do
    let inner ← pattern.matcher s place
    return ⟨inner.test, (name, place) :: inner.bindings⟩
  | .or [] => return ⟨.never, []⟩
  | .or alternatives => do
    let matchers ← Pattern.matchers s place alternatives
    Matcher.choice alternatives matchers
  | .foreign node => .error (.unhandled .pattern node)

/-- Compiles patterns for one place. -/
def Pattern.matchers (s : Style) (place : Ref) : List Pattern → Rendered (List Matcher)
  | [] => .ok []
  | p :: rest => return (← p.matcher s place) :: (← Pattern.matchers s place rest)

/-- Compiles patterns for the arguments of a constructor, from argument `i` on. -/
def Pattern.argumentMatchers (s : Style) (place : Ref) (arity i : Nat) : List Pattern → Rendered (List Matcher)
  | [] => .ok []
  | p :: rest =>
    return (← p.matcher s (.argument place i arity)) :: (← Pattern.argumentMatchers s place arity (i + 1) rest)

/-- Compiles patterns for the elements of a list, from element `i` on. -/
def Pattern.elementMatchers (s : Style) (place : Ref) (i : Nat) : List Pattern → Rendered (List Matcher)
  | [] => .ok []
  | p :: rest => return (← p.matcher s (.element place i)) :: (← Pattern.elementMatchers s place (i + 1) rest)

/-- Compiles patterns for the fields of a record. -/
def NamedPattern.matchers (s : Style) (place : Ref) : List NamedPattern → Rendered (List Matcher)
  | [] => .ok []
  | ⟨name, pattern⟩ :: rest =>
    return (← pattern.matcher s (.property place name)) :: (← NamedPattern.matchers s place rest)

end

/-- The text of an expression. -/
def Expr.render (s : Style) (indentation : Text) (e : Expr) : Rendered Text :=
  return (← e.code s).toText indentation

end ExprScript
