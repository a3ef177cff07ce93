import ExprScript.Proofs.Chain.Reachable
import ExprScript.Proofs.Tree.WellFormed

/-!
# Expressions with a hole

A `Frame` is one node of an expression with a hole in the place of one of the expressions in it, and a `Context` is an
expression with a hole at any depth: the frames on the way to the hole. Every expression in a node is such a place,
except the value of a literal pattern, where only a literal may stand.

`Context.isReached` says that the hole lies in no arm after one that takes every value.
-/

namespace ExprScript

/-- An arm with a hole. -/
inductive ArmFrame where
  | inGuard (pattern : Pattern) (body : Expr)
  | inBody (pattern : Pattern) (guard : Option Expr)

/-- A statement with a hole. -/
inductive StatementFrame where
  | bind (name : Text)
  | effect

/-- A node with a hole. -/
inductive Frame where
  | listElement (before after : List Expr)
  | recordField (before : List NamedExpr) (name : Text) (after : List NamedExpr)
  | binaryLeft (op : Text) (right : Expr)
  | binaryRight (op : Text) (left : Expr)
  | unaryOperand (op : Text)
  | callFn (args : List Expr)
  | callArg (fn : Expr) (before after : List Expr)
  | constructArg (constructor : Text) (before after : List Expr)
  | recordCreateField (recordType : Text) (before : List NamedExpr) (name : Text) (after : List NamedExpr)
  | updateTarget (updates : List NamedExpr)
  | updateField (target : Expr) (before : List NamedExpr) (name : Text) (after : List NamedExpr)
  | fieldTarget (name : Text)
  | indexTarget (index : Expr)
  | indexIndex (target : Expr)
  | ifCondition (yes no : Expr)
  | ifYes (condition no : Expr)
  | ifNo (condition yes : Expr)
  | letBinding (before : List NamedExpr) (name : Text) (after : List NamedExpr) (body : Expr)
  | letBody (bindings : List NamedExpr)
  | caseScrutinee (arms : List Arm)
  | caseArm (scrutinee : Expr) (before : List Arm) (arm : ArmFrame) (after : List Arm)
  | lambdaBody (params : List Param)
  | tryBody (handlers : List Arm)
  | tryHandler (body : Expr) (before : List Arm) (handler : ArmFrame) (after : List Arm)
  | doStatement (before : List Statement) (statement : StatementFrame) (after : List Statement) (result : Expr)
  | doResult (statements : List Statement)
  | mapCollection (iterator : Text) (transform : Expr)
  | mapTransform (collection : Expr) (iterator : Text)
  | filterCollection (iterator : Text) (predicate : Expr)
  | filterPredicate (collection : Expr) (iterator : Text)
  | foldCollection (initial : Expr) (accumulator iterator : Text) (transform : Expr)
  | foldInitial (collection : Expr) (accumulator iterator : Text) (transform : Expr)
  | foldTransform (collection initial : Expr) (accumulator iterator : Text)
  | annotated (type : Text)

/-- The arm with an expression in the hole. -/
def ArmFrame.fill (e : Expr) : ArmFrame → Arm
  | .inGuard pattern body => ⟨pattern, some e, body⟩
  | .inBody pattern guard => ⟨pattern, guard, e⟩

/-- The statement with an expression in the hole. -/
def StatementFrame.fill (e : Expr) : StatementFrame → Statement
  | .bind name => .bind name e
  | .effect => .effect e

namespace Frame

/-- The node with an expression in the hole. -/
def fill (e : Expr) : Frame → Expr
  | .listElement before after => .list (before ++ e :: after)
  | .recordField before name after => .record (before ++ ⟨name, e⟩ :: after)
  | .binaryLeft op right => .binary op e right
  | .binaryRight op left => .binary op left e
  | .unaryOperand op => .unary op e
  | .callFn args => .call e args
  | .callArg fn before after => .call fn (before ++ e :: after)
  | .constructArg constructor before after => .construct constructor (before ++ e :: after)
  | .recordCreateField recordType before name after => .recordCreate recordType (before ++ ⟨name, e⟩ :: after)
  | .updateTarget updates => .recordUpdate e updates
  | .updateField target before name after => .recordUpdate target (before ++ ⟨name, e⟩ :: after)
  | .fieldTarget name => .field e name
  | .indexTarget index => .index e index
  | .indexIndex target => .index target e
  | .ifCondition yes no => .ifThenElse e yes no
  | .ifYes condition no => .ifThenElse condition e no
  | .ifNo condition yes => .ifThenElse condition yes e
  | .letBinding before name after body => .letIn (before ++ ⟨name, e⟩ :: after) body
  | .letBody bindings => .letIn bindings e
  | .caseScrutinee arms => .caseOf e arms
  | .caseArm scrutinee before arm after => .caseOf scrutinee (before ++ arm.fill e :: after)
  | .lambdaBody params => .lambda params e
  | .tryBody handlers => .tryCatch e handlers
  | .tryHandler body before handler after => .tryCatch body (before ++ handler.fill e :: after)
  | .doStatement before statement after result => .doBlock (before ++ statement.fill e :: after) result
  | .doResult statements => .doBlock statements e
  | .mapCollection iterator transform => .map e iterator transform
  | .mapTransform collection iterator => .map collection iterator e
  | .filterCollection iterator predicate => .filter e iterator predicate
  | .filterPredicate collection iterator => .filter collection iterator e
  | .foldCollection initial accumulator iterator transform => .fold e initial accumulator iterator transform
  | .foldInitial collection accumulator iterator transform => .fold collection e accumulator iterator transform
  | .foldTransform collection initial accumulator iterator => .fold collection initial accumulator iterator e
  | .annotated type => .annotate e type

/-- Whether the hole is in no arm after one that takes every value. -/
def isReached : Frame → Bool
  | .caseArm _ before _ _ | .tryHandler _ before _ _ => before.all fun a => !a.isCatchAll
  | _ => true

/-- What is in the hole of a well-formed expression is well-formed. -/
theorem isWellFormed_of_fill {f : Frame} {e : Expr} (h : (f.fill e).isWellFormed = true) : e.isWellFormed = true := by
  have inArm {a : ArmFrame} (h : (a.fill e).IsWellFormed) : e.isWellFormed = true := by
    cases a with
    | inGuard pattern body => exact h.2.1 e rfl
    | inBody pattern guard => exact h.2.2
  have inStatement {st : StatementFrame} (h : (st.fill e).IsWellFormed) : e.isWellFormed = true := by
    cases st with
    | bind name => exact h
    | effect => exact h
  cases f <;> simp only [fill, Expr.isWellFormed, Bool.and_eq_true, Expr.allWellFormed_iff, NamedExpr.allWellFormed_iff,
    Arm.allWellFormed_iff, Statement.allWellFormed_iff, List.forall_mem_append, List.forall_mem_cons] at h <;> grind

end Frame

/-- An expression with a hole: the frames on the way to it, from the outermost on. -/
abbrev Context := List Frame

namespace Context

/-- The whole with an expression in the hole. -/
def fill (C : Context) (e : Expr) : Expr := C.foldr (fun f inner => f.fill inner) e

/-- A context is well-formed if it gives a well-formed expression for every well-formed expression in the hole. -/
def IsWellFormed (C : Context) : Prop := ∀ e : Expr, e.isWellFormed = true → (C.fill e).isWellFormed = true

/-- Whether the hole is in no arm, at any depth, that comes after one that takes every value. -/
def isReached (C : Context) : Bool := C.all Frame.isReached

theorem fill_cons (f : Frame) (C : Context) (e : Expr) : (fill (f :: C) e) = f.fill (C.fill e) := rfl

end Context

end ExprScript
