import ExprScript.Proofs.Tree.Induction
import ExprScript.Tree.Operator

/-!
# Well-formed trees

The trees have room for more than the language has. A tree is well-formed if every node in it is one of the language:
integers are integers, operators are known, literal patterns hold literals, lists of arms and of alternatives are not
empty, and no node is foreign. The checks of lists hold if they hold of every part (`Expr.allWellFormed_iff` and its
siblings).
-/

namespace ExprScript

/-- The expressions that a literal pattern may hold. -/
def Expr.isLiteral : Expr → Bool
  | .int _ | .string _ | .bool _ => true
  | _ => false

mutual

/-- Whether every node of an expression is one of the language. -/
def Expr.isWellFormed : Expr → Bool
  | .int value => value.isInteger
  | .string _ | .bool _ | .variable _ | .qualified _ _ => true
  | .list elements => Expr.allWellFormed elements
  | .record fields => NamedExpr.allWellFormed fields
  | .binary op left right => (BinaryOp.ofName? op).isSome && left.isWellFormed && right.isWellFormed
  | .unary op operand => (UnaryOp.ofName? op).isSome && operand.isWellFormed
  | .call fn args => fn.isWellFormed && Expr.allWellFormed args
  | .construct _ args => Expr.allWellFormed args
  | .recordCreate _ fields => NamedExpr.allWellFormed fields
  | .recordUpdate target updates => target.isWellFormed && NamedExpr.allWellFormed updates
  | .field target _ => target.isWellFormed
  | .index target index => target.isWellFormed && index.isWellFormed
  | .ifThenElse condition yes no => condition.isWellFormed && yes.isWellFormed && no.isWellFormed
  | .letIn bindings body => NamedExpr.allWellFormed bindings && body.isWellFormed
  | .caseOf scrutinee arms => scrutinee.isWellFormed && !arms.isEmpty && Arm.allWellFormed arms
  | .lambda _ body => body.isWellFormed
  | .tryCatch body handlers => body.isWellFormed && !handlers.isEmpty && Arm.allWellFormed handlers
  | .doBlock statements result => Statement.allWellFormed statements && result.isWellFormed
  | .map collection _ transform => collection.isWellFormed && transform.isWellFormed
  | .filter collection _ predicate => collection.isWellFormed && predicate.isWellFormed
  | .fold collection initial _ _ transform =>
    collection.isWellFormed && initial.isWellFormed && transform.isWellFormed
  | .annotate expr _ => expr.isWellFormed
  | .foreign _ => false

/-- Whether all expressions are well-formed. -/
def Expr.allWellFormed : List Expr → Bool
  | [] => true
  | e :: rest => e.isWellFormed && Expr.allWellFormed rest

/-- Whether all named expressions are well-formed. -/
def NamedExpr.allWellFormed : List NamedExpr → Bool
  | [] => true
  | ⟨_, value⟩ :: rest => value.isWellFormed && NamedExpr.allWellFormed rest

/-- Whether all arms are well-formed: their patterns, guards and bodies. -/
def Arm.allWellFormed : List Arm → Bool
  | [] => true
  | ⟨pattern, none, body⟩ :: rest => pattern.isWellFormed && body.isWellFormed && Arm.allWellFormed rest
  | ⟨pattern, some guard, body⟩ :: rest =>
    pattern.isWellFormed && guard.isWellFormed && body.isWellFormed && Arm.allWellFormed rest

/-- Whether all statements are well-formed. -/
def Statement.allWellFormed : List Statement → Bool
  | [] => true
  | .bind _ value :: rest => value.isWellFormed && Statement.allWellFormed rest
  | .effect expr :: rest => expr.isWellFormed && Statement.allWellFormed rest
  | .foreign _ :: _ => false

/-- Whether every node of a pattern is one of the language. -/
def Pattern.isWellFormed : Pattern → Bool
  | .wildcard | .variable _ => true
  | .literal value => value.isLiteral && value.isWellFormed
  | .constructor _ args => Pattern.allWellFormed args
  | .record fields => NamedPattern.allWellFormed fields
  | .list elements none => Pattern.allWellFormed elements
  | .list elements (some tail) => Pattern.allWellFormed elements && tail.isWellFormed
  | .alias _ pattern => pattern.isWellFormed
  | .or alternatives => !alternatives.isEmpty && Pattern.allWellFormed alternatives
  | .foreign _ => false

/-- Whether all patterns are well-formed. -/
def Pattern.allWellFormed : List Pattern → Bool
  | [] => true
  | p :: rest => p.isWellFormed && Pattern.allWellFormed rest

/-- Whether the patterns of all fields are well-formed. -/
def NamedPattern.allWellFormed : List NamedPattern → Bool
  | [] => true
  | ⟨_, pattern⟩ :: rest => pattern.isWellFormed && NamedPattern.allWellFormed rest

end

/-- Whether every node of a declaration is one of the language. -/
def Decl.isWellFormed : Decl → Bool
  | .const _ _ value _ => value.isWellFormed
  | .function _ _ _ body _ => body.isWellFormed
  | .foreign _ => false

/-- Whether all declarations of a module are well-formed. -/
def Module.isWellFormed (m : Module) : Bool := m.decls.all Decl.isWellFormed

/-! ## Lists of parts -/

theorem Expr.allWellFormed_iff {es : List Expr} : Expr.allWellFormed es = true ↔ ∀ e ∈ es, e.isWellFormed = true := by
  induction es with
  | nil => simp [Expr.allWellFormed]
  | cons e rest ih => simp [Expr.allWellFormed, ih]

theorem NamedExpr.allWellFormed_iff {fs : List NamedExpr} :
    NamedExpr.allWellFormed fs = true ↔ ∀ f ∈ fs, f.value.isWellFormed = true := by
  induction fs with
  | nil => simp [NamedExpr.allWellFormed]
  | cons f rest ih =>
    obtain ⟨_, value⟩ := f
    simp [NamedExpr.allWellFormed, ih]

/-- An arm is well-formed if its pattern, its guard and its body are. -/
def Arm.IsWellFormed (a : Arm) : Prop :=
  a.pattern.isWellFormed = true ∧ (∀ g ∈ a.guard, g.isWellFormed = true) ∧ a.body.isWellFormed = true

theorem Arm.allWellFormed_iff {arms : List Arm} : Arm.allWellFormed arms = true ↔ ∀ a ∈ arms, a.IsWellFormed := by
  induction arms with
  | nil => simp [Arm.allWellFormed]
  | cons a rest ih =>
    obtain ⟨p, guard, body⟩ := a
    cases guard with
    | none => simp [Arm.allWellFormed, Arm.IsWellFormed, ih, and_assoc]
    | some g => simp [Arm.allWellFormed, Arm.IsWellFormed, ih, and_assoc]

/-- A statement is well-formed if it is no foreign node and its expression is. -/
def Statement.IsWellFormed : Statement → Prop
  | .bind _ value => value.isWellFormed = true
  | .effect expr => expr.isWellFormed = true
  | .foreign _ => False

theorem Statement.IsWellFormed.expr? {st : Statement} (h : st.IsWellFormed) {e : Expr} (he : e ∈ st.expr?) :
    e.isWellFormed = true := by
  cases st with
  | bind name value => exact (Option.some.inj he) ▸ h
  | effect expr => exact (Option.some.inj he) ▸ h
  | foreign node => exact absurd h id

theorem Statement.allWellFormed_iff {sts : List Statement} :
    Statement.allWellFormed sts = true ↔ ∀ st ∈ sts, st.IsWellFormed := by
  induction sts with
  | nil => simp [Statement.allWellFormed]
  | cons st rest ih => cases st <;> simp [Statement.allWellFormed, Statement.IsWellFormed, ih]

theorem Pattern.allWellFormed_iff {ps : List Pattern} :
    Pattern.allWellFormed ps = true ↔ ∀ p ∈ ps, p.isWellFormed = true := by
  induction ps with
  | nil => simp [Pattern.allWellFormed]
  | cons p rest ih => simp [Pattern.allWellFormed, ih]

theorem NamedPattern.allWellFormed_iff {fs : List NamedPattern} :
    NamedPattern.allWellFormed fs = true ↔ ∀ f ∈ fs, f.pattern.isWellFormed = true := by
  induction fs with
  | nil => simp [NamedPattern.allWellFormed]
  | cons f rest ih =>
    obtain ⟨_, pattern⟩ := f
    simp [NamedPattern.allWellFormed, ih]

theorem Pattern.isWellFormed_list_iff {elements : List Pattern} {tail : Option Pattern} :
    (Pattern.list elements tail).isWellFormed = true ↔
      (∀ p ∈ elements, p.isWellFormed = true) ∧ ∀ t ∈ tail, t.isWellFormed = true := by
  cases tail with
  | none => simp [Pattern.isWellFormed, Pattern.allWellFormed_iff]
  | some t => simp [Pattern.isWellFormed, Pattern.allWellFormed_iff]

theorem Module.isWellFormed_iff {m : Module} : m.isWellFormed = true ↔ ∀ d ∈ m.decls, d.isWellFormed = true :=
  List.all_eq_true

end ExprScript
