import ExprScript.Tree.Basic

/-!
# Induction on trees

The trees are nested: expressions hold lists of arms, which hold expressions, and so on. Proofs about them go by two
principles, in which a list of parts comes with the hypothesis for every part in it.

- `Pattern.inductionOn` for patterns. Literals come without a hypothesis;
- `Expr.inductionOn` for expressions. Patterns come without a hypothesis.
-/

namespace ExprScript

/-! ## Patterns -/

/-- Induction on patterns. -/
@[elab_as_elim]
theorem Pattern.inductionOn {motive : Pattern → Prop} (wildcard : motive .wildcard)
    (var : ∀ name, motive (.variable name)) (literal : ∀ value, motive (.literal value))
    (construct : ∀ name args, (∀ p ∈ args, motive p) → motive (.constructor name args))
    (record : ∀ fields, (∀ f ∈ fields, motive f.pattern) → motive (.record fields))
    (list : ∀ elements tail, (∀ p ∈ elements, motive p) → (∀ t ∈ tail, motive t) → motive (.list elements tail))
    (named : ∀ name p, motive p → motive (.alias name p))
    (choice : ∀ ps, (∀ p ∈ ps, motive p) → motive (.or ps)) (foreign : ∀ node, motive (.foreign node))
    (p : Pattern) : motive p := by
  -- one motive for each sort of tree, list and option, in the order of the recursor; nothing is claimed of expressions
  apply @Pattern.rec (fun _ => True) (fun _ => True) (fun _ => True) (fun _ => True) motive
    (fun f => motive f.pattern) (fun _ => True) (fun _ => True) (fun _ => True) (fun _ => True) (fun _ => True)
    (fun ps => ∀ p ∈ ps, motive p) (fun fields => ∀ f ∈ fields, motive f.pattern) (fun tail => ∀ t ∈ tail, motive t)
  case literal => exact fun value _ => literal value
  -- the other forms are hypotheses, and lists get the hypothesis of the head and that of the tail
  all_goals first
    | assumption
    | exact fun _ _ head tail => List.forall_mem_cons.mpr ⟨head, tail⟩
    | simp

/-! ## Expressions -/

/-- The expression of a statement. -/
def Statement.expr? : Statement → Option Expr
  | .bind _ value => some value
  | .effect expr => some expr
  | .foreign _ => none

/-- Induction on expressions. -/
@[elab_as_elim]
theorem Expr.inductionOn {motive : Expr → Prop} (int : ∀ value, motive (.int value))
    (string : ∀ value, motive (.string value)) (bool : ∀ value, motive (.bool value))
    (list : ∀ elements, (∀ e ∈ elements, motive e) → motive (.list elements))
    (record : ∀ fields, (∀ f ∈ fields, motive f.value) → motive (.record fields))
    (var : ∀ name, motive (.variable name)) (qualified : ∀ space name, motive (.qualified space name))
    (binary : ∀ op left right, motive left → motive right → motive (.binary op left right))
    (unary : ∀ op operand, motive operand → motive (.unary op operand))
    (call : ∀ fn args, motive fn → (∀ e ∈ args, motive e) → motive (.call fn args))
    (construct : ∀ name args, (∀ e ∈ args, motive e) → motive (.construct name args))
    (recordCreate : ∀ type fields, (∀ f ∈ fields, motive f.value) → motive (.recordCreate type fields))
    (recordUpdate : ∀ target updates, motive target → (∀ f ∈ updates, motive f.value) →
      motive (.recordUpdate target updates))
    (field : ∀ target name, motive target → motive (.field target name))
    (index : ∀ target i, motive target → motive i → motive (.index target i))
    (ifThenElse : ∀ condition yes no, motive condition → motive yes → motive no →
      motive (.ifThenElse condition yes no))
    (letIn : ∀ bindings body, (∀ f ∈ bindings, motive f.value) → motive body → motive (.letIn bindings body))
    (caseOf : ∀ scrutinee arms, motive scrutinee → (∀ a ∈ arms, (∀ g ∈ a.guard, motive g) ∧ motive a.body) →
      motive (.caseOf scrutinee arms))
    (lambda : ∀ params body, motive body → motive (.lambda params body))
    (tryCatch : ∀ body handlers, motive body → (∀ a ∈ handlers, (∀ g ∈ a.guard, motive g) ∧ motive a.body) →
      motive (.tryCatch body handlers))
    (doBlock : ∀ statements result, (∀ st ∈ statements, ∀ e ∈ st.expr?, motive e) → motive result →
      motive (.doBlock statements result))
    (map : ∀ collection iterator transform, motive collection → motive transform →
      motive (.map collection iterator transform))
    (filter : ∀ collection iterator predicate, motive collection → motive predicate →
      motive (.filter collection iterator predicate))
    (fold : ∀ collection initial accumulator iterator transform, motive collection → motive initial →
      motive transform → motive (.fold collection initial accumulator iterator transform))
    (annotate : ∀ e type, motive e → motive (.annotate e type)) (foreign : ∀ node, motive (.foreign node))
    (e : Expr) : motive e := by
  -- as for patterns, of which now nothing is claimed
  apply @Expr.rec motive (fun f => motive f.value) (fun a => (∀ g ∈ a.guard, motive g) ∧ motive a.body)
    (fun st => ∀ e ∈ st.expr?, motive e) (fun _ => True) (fun _ => True) (fun es => ∀ e ∈ es, motive e)
    (fun fields => ∀ f ∈ fields, motive f.value) (fun arms => ∀ a ∈ arms, (∀ g ∈ a.guard, motive g) ∧ motive a.body)
    (fun statements => ∀ st ∈ statements, ∀ e ∈ st.expr?, motive e) (fun guard => ∀ g ∈ guard, motive g)
    (fun _ => True) (fun _ => True) (fun _ => True)
  all_goals first
    | assumption
    | exact fun _ _ head tail => List.forall_mem_cons.mpr ⟨head, tail⟩
    | exact fun _ _ _ _ guard body => ⟨guard, body⟩
    | simp [Statement.expr?]

end ExprScript
