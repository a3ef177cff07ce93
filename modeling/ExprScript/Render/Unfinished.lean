import ExprScript.Layout.Extent
import ExprScript.Render.Module

/-!
# Renderings that fail

A rendering that ends in an error has made texts before, and each of them has to be short enough for a text to begin
with. `Expr.unfinished` and `Module.unfinished` are the extents of these texts, for a tree that cannot be rendered, and
`Pattern.unfinished` those for a pattern that cannot be compiled.

The parts are rendered in the order in which `Expr.code` names them. What is made with a part stands after it in the
list: the beginning of the code that goes on with the next part, and in a laid-out piece the line that is now complete
together with its indentation. In a pattern it is the condition of the part. A text that is contained in another one
of the list may be left out.

Two kinds of texts are not listed, though they are made as well: the code of a place that no condition looks at, and
the wording of the error itself.
-/

namespace ExprScript

/-- What is made from a part on: what `next` says of its code, or the texts of the part itself if it fails. -/
@[macro_inline]
def madeFrom (part : Rendered Code) (unfinished : List Extent) (next : Code → List Extent) : List Extent :=
  match part with
  | .ok code => next code
  | .error _ => unfinished

/-- What is made from a part of a pattern on: its condition and what comes `after` it, or the texts of the part itself
if it fails. -/
@[macro_inline]
def madeTest (s : Style) (value : Code) (part : Rendered Matcher) (unfinished after : List Extent) : List Extent :=
  match part with
  | .ok m => (m.condition s.dialect value).extent :: after
  | .error _ => unfinished

/-- What is made for a line: its text and its indentation. -/
def madeLine (level : Nat) (line : Code) : List Extent := [line.extent, .ofLevel level]

/-- What is made for the constants of a branch. -/
def madeConstants (level : Nat) (bindings : List (Text × Code)) : List Extent :=
  bindings.flatMap fun (name, value) => madeLine level (Code.constant name value)

/-- What is made for a branch with a test, up to its body. -/
def madeOpening (level : Nat) (opened : Bool) (test : Code) (bindings : List (Text × Code)) : List Extent :=
  madeLine level (Chain.openingCode opened test) ++ madeConstants (level + 1) bindings

mutual

/-- What is made for an expression that cannot be rendered. -/
def Expr.unfinished (s : Style) : Expr → List Extent
  | .list elements => Expr.unfinishedParts s elements
  | .record fields => NamedExpr.unfinishedFields s fields
  | .binary op left right =>
    match BinaryOp.ofName? op with
    | some _ => madeFrom (left.code s) (left.unfinished s) fun l => l.extent :: right.unfinished s
    | none => []
  | .unary op operand =>
    match UnaryOp.ofName? op with
    | some _ => operand.unfinished s
    | none => []
  | .call fn args =>
    madeFrom (fn.code s) (fn.unfinished s) fun f => (callHead f).extent :: Expr.unfinishedParts s args
  | .construct _ args => Expr.unfinishedParts s args
  | .recordCreate _ fields => NamedExpr.unfinishedFields s fields
  | .recordUpdate target updates =>
    madeFrom (target.code s) (target.unfinished s) fun t =>
      (updateHead t).extent :: NamedExpr.unfinishedFields s updates
  | .field target _ => target.unfinished s
  | .index target index =>
    madeFrom (target.code s) (target.unfinished s) fun t => (indexHead t).extent :: index.unfinished s
  | .ifThenElse condition yes no =>
    madeFrom (condition.code s) (condition.unfinished s) fun c =>
      madeLine 1 (Chain.openingCode false c) ++
        madeFrom (yes.code s) (yes.unfinished s) fun y => madeLine 2 (Code.result y) ++ no.unfinished s
  | .letIn bindings body => NamedExpr.unfinishedConstants s (body.unfinished s) bindings
  | .caseOf scrutinee arms =>
    madeFrom (scrutinee.code s) (scrutinee.unfinished s) fun c =>
      (applicationCode c).extent :: Arm.unfinished s (.text s.matchVar) 1 false arms
  | .lambda _ body => body.unfinished s
  | .tryCatch body handlers =>
    .ofLevel 1 :: madeFrom (body.code s) (body.unfinished s) fun b =>
      madeLine 2 (Code.result b) ++ Arm.unfinished s (.text s.errorVar) 2 false handlers
  | .doBlock statements result => Statement.unfinished s (result.unfinished s) statements
  | .map collection iterator transform =>
    madeFrom (collection.code s) (collection.unfinished s) fun c =>
      (methodHead c "map" iterator).extent :: transform.unfinished s
  | .filter collection iterator predicate =>
    madeFrom (collection.code s) (collection.unfinished s) fun c =>
      (methodHead c "filter" iterator).extent :: predicate.unfinished s
  | .fold collection initial accumulator iterator transform =>
    madeFrom (collection.code s) (collection.unfinished s) fun c =>
      let head := methodHead c "reduce" (accumulator ++ ", " ++ iterator)
      head.extent :: madeFrom (transform.code s) (transform.unfinished s) fun t =>
        (head ++ t ++ ", ").extent :: initial.unfinished s
  | .annotate expr _ => expr.unfinished s
  | .int _ | .string _ | .bool _ | .variable _ | .qualified _ _ | .foreign _ => []

/-- What is made for expressions, up to the first that cannot be rendered. -/
def Expr.unfinishedParts (s : Style) : List Expr → List Extent
  | [] => []
  | e :: rest => madeFrom (e.code s) (e.unfinished s) fun c => c.extent :: Expr.unfinishedParts s rest

/-- What is made for the fields of a record. -/
def NamedExpr.unfinishedFields (s : Style) : List NamedExpr → List Extent
  | [] => []
  | ⟨name, value⟩ :: rest =>
    madeFrom (value.code s) (value.unfinished s) fun c =>
      (entryCode name c).extent :: NamedExpr.unfinishedFields s rest

/-- What is made for constants, and after them. -/
def NamedExpr.unfinishedConstants (s : Style) (after : List Extent) : List NamedExpr → List Extent
  | [] => after
  | ⟨name, value⟩ :: rest =>
    madeFrom (value.code s) (value.unfinished s) fun c =>
      madeLine 1 (Code.constant name c) ++ NamedExpr.unfinishedConstants s after rest

/-- What is made for the statements of a do block, and after them. -/
def Statement.unfinished (s : Style) (after : List Extent) : List Statement → List Extent
  | [] => after
  | .bind name value :: rest =>
    madeFrom (value.code s) (value.unfinished s) fun c =>
      madeLine 1 (Code.constant name c) ++ Statement.unfinished s after rest
  | .effect expr :: rest =>
    madeFrom (expr.code s) (expr.unfinished s) fun c =>
      madeLine 1 (c ++ ";") ++ Statement.unfinished s after rest
  | .foreign _ :: _ => []

/-- What is made for arms that stand at a level; `opened` says whether branches stand before them. -/
def Arm.unfinished (s : Style) (value : Code) (level : Nat) (opened : Bool) : List Arm → List Extent
  | [] => []
  | ⟨pattern, none, body⟩ :: rest =>
    match pattern.matcher s .root with
    | .error _ => pattern.unfinished s value .root
    | .ok m =>
      let condition := m.condition s.dialect value
      let bindings := m.bindingCodes s.dialect value
      if condition.readsTrue then
        madeConstants (if opened then level + 1 else level) bindings ++ body.unfinished s
      else
        madeOpening level opened condition bindings ++
          madeFrom (body.code s) (body.unfinished s) fun b =>
            madeLine (level + 1) (Code.result b) ++ Arm.unfinished s value level true rest
  | ⟨pattern, some guard, body⟩ :: rest =>
    match pattern.matcher s .root with
    | .error _ => pattern.unfinished s value .root
    | .ok m =>
      let condition := m.condition s.dialect value
      let bindings := m.bindingCodes s.dialect value
      (Chain.guardHead condition).extent :: madeFrom (guard.code s) (guard.unfinished s) fun g =>
        madeOpening level opened (Chain.testCode condition (some g) bindings) bindings ++
          madeFrom (body.code s) (body.unfinished s) fun b =>
            madeLine (level + 1) (Code.result b) ++ Arm.unfinished s value level true rest

/-- What is made for a pattern that cannot be compiled for a place. -/
def Pattern.unfinished (s : Style) (value : Code) (place : Ref) : Pattern → List Extent
  | .literal literal => literal.unfinished s
  | .constructor constructor args =>
    ((Test.instanceOf place constructor).code s.dialect value).extent ::
      Pattern.unfinishedArguments s value place args.length 0 args
  | .record fields =>
    ((Test.notNull place).code s.dialect value).extent :: NamedPattern.unfinished s value place fields
  | .list elements none => Pattern.unfinishedElements s value place [] 0 elements
  | .list elements (some tail) =>
    let length := (Test.lengthAtLeast place elements.length).code s.dialect value
    Pattern.unfinishedElements s value place
      (length.extent :: tail.unfinished s value (.slice place elements.length)) 0 elements
  | .alias _ pattern => pattern.unfinished s value place
  | .or alternatives => Pattern.unfinishedAlternatives s value place alternatives
  | .wildcard | .variable _ | .foreign _ => []

/-- What is made for alternatives, up to the first that cannot be compiled. -/
def Pattern.unfinishedAlternatives (s : Style) (value : Code) (place : Ref) : List Pattern → List Extent
  | [] => []
  | p :: rest =>
    madeTest s value (p.matcher s place) (p.unfinished s value place)
      (Pattern.unfinishedAlternatives s value place rest)

/-- What is made for the arguments of a constructor, from argument `i` on. -/
def Pattern.unfinishedArguments (s : Style) (value : Code) (place : Ref) (arity i : Nat) :
    List Pattern → List Extent
  | [] => []
  | p :: rest =>
    madeTest s value (p.matcher s (.argument place i arity)) (p.unfinished s value (.argument place i arity))
      (Pattern.unfinishedArguments s value place arity (i + 1) rest)

/-- What is made for the elements of a list, from element `i` on, and after them. -/
def Pattern.unfinishedElements (s : Style) (value : Code) (place : Ref) (after : List Extent) (i : Nat) :
    List Pattern → List Extent
  | [] => after
  | p :: rest =>
    madeTest s value (p.matcher s (.element place i)) (p.unfinished s value (.element place i))
      (Pattern.unfinishedElements s value place after (i + 1) rest)

/-- What is made for the fields of a record. -/
def NamedPattern.unfinished (s : Style) (value : Code) (place : Ref) : List NamedPattern → List Extent
  | [] => []
  | ⟨name, pattern⟩ :: rest =>
    madeTest s value (pattern.matcher s (.property place name)) (pattern.unfinished s value (.property place name))
      (NamedPattern.unfinished s value place rest)

end

/-- What is made for a declaration that cannot be rendered. -/
def Decl.unfinished (s : Style) : Decl → List Extent
  | .const _ _ value _ => value.unfinished s
  | .function _ _ _ body _ => body.unfinished s
  | .foreign _ => []

/-- What is made for declarations, up to the first that cannot be rendered. -/
def Decl.unfinishedParts (s : Style) : List Decl → List Extent
  | [] => []
  | d :: rest => madeFrom (d.code s) (d.unfinished s) fun c => c.extent :: Decl.unfinishedParts s rest

/-- What is made for a module that cannot be rendered. -/
def Module.unfinished (s : Style) (m : Module) : List Extent := Decl.unfinishedParts s m.decls

end ExprScript
