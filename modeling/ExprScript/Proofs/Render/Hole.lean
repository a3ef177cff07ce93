import ExprScript.Proofs.Layout.Embedding
import ExprScript.Proofs.Tree.Context

/-!
# Rendering around a hole

What rendering does with one expression in it. `Settles s Q r` is the invariant of a computation `r` that renders an
expression somewhere: it asks for nothing but the rendering of that expression, it fails if that fails, and otherwise it
either always fails with one error or makes of the code something that has the property `Q`. It passes through what is
rendered before the expression (`Settles.after`) and after it (`Settles.bind`), so the frames only have to name what
their code does with the code of the hole.

- `settles_codes`, `settles_fields`, `settles_lines` and `settles_chain`: lists in which one part has the hole;
- `Frame.settles`: every frame that is reached writes the code of the hole once, in the middle of a line.
-/

namespace ExprScript

/-! ## Computations with a hole -/

/-- A computation on the code of the hole always fails with one error, or always makes something of the code. -/
def Uniform {β : Type} (Q : (Code → β) → Prop) (k : Code → Rendered β) : Prop :=
  (∃ error, ∀ c, k c = .error error) ∨ ∃ F, Q F ∧ ∀ c, k c = .ok (F c)

/-- A computation that renders the expression in the hole depends on its rendering only, fails if that fails, and is
uniform in its code. -/
def Settles {β : Type} (s : Style) (Q : (Code → β) → Prop) (r : Expr → Rendered β) : Prop :=
  ∃ R : Rendered Code → Rendered β, (∀ e, r e = R (e.code s)) ∧ (∀ error, ∃ error', R (.error error) = .error error') ∧
    Uniform Q fun c => R (.ok c)

section Computations

variable {α β γ : Type} {s : Style} {P : (Code → β) → Prop} {Q : (Code → γ) → Prop}

theorem Uniform.pure {F : Code → γ} (h : Q F) : Uniform Q fun c => (Pure.pure (F c) : Rendered γ) :=
  .inr ⟨F, h, fun _ => rfl⟩

/-- Something else is rendered after the hole. -/
theorem Uniform.after (x : Rendered α) {k : Code → α → Rendered γ}
    (h : ∀ a, x = .ok a → Uniform Q fun c => k c a) : Uniform Q fun c => x >>= k c := by
  cases x with
  | error error => exact .inl ⟨error, fun _ => rfl⟩
  | ok a => exact h a rfl

/-- The hole is rendered. -/
theorem Settles.hole {k : Code → Rendered γ} (h : Uniform Q k) : Settles s Q fun e => e.code s >>= k :=
  ⟨fun r => r >>= k, fun _ => rfl, fun error => ⟨error, rfl⟩, h⟩

theorem Settles.error (error : RenderError) : Settles s Q fun _ => .error error :=
  ⟨fun _ => .error error, fun _ => rfl, fun _ => ⟨error, rfl⟩, .inl ⟨error, fun _ => rfl⟩⟩

/-- Something else is rendered before the hole. -/
theorem Settles.after (x : Rendered α) {k : α → Expr → Rendered γ} (h : ∀ a, x = .ok a → Settles s Q (k a)) :
    Settles s Q fun e => x >>= fun a => k a e := by
  cases x with
  | error error => exact .error error
  | ok a => exact h a rfl

/-- What has the hole is rendered, and then something is made of it. -/
theorem Settles.bind {r : Expr → Rendered β} (h : Settles s P r) {k : β → Rendered γ}
    (next : ∀ F, P F → Uniform Q fun c => k (F c)) : Settles s Q fun e => r e >>= k := by
  obtain ⟨R, eq, fails, uniform⟩ := h
  refine ⟨fun x => R x >>= k, fun e => congrArg (· >>= k) (eq e), fun error => ?_, ?_⟩
  · obtain ⟨error', failed⟩ := fails error
    exact ⟨error', congrArg (· >>= k) failed⟩
  · rcases uniform with ⟨error, failed⟩ | ⟨F, hF, made⟩
    · exact .inl ⟨error, fun c => congrArg (· >>= k) (failed c)⟩
    · have same : (fun c => R (.ok c) >>= k) = fun c => k (F c) := funext fun c => congrArg (· >>= k) (made c)
      exact same ▸ next F hF

/-- What a computation with a hole gives, if it can give anything, is made of the code of the hole. -/
theorem Settles.ok_cases {r : Expr → Rendered β} (h : Settles s P r) :
    (∀ e b, r e ≠ .ok b) ∨ ∃ F, P F ∧ ∀ e b, r e = .ok b → ∃ c, e.code s = .ok c ∧ b = F c := by
  obtain ⟨R, eq, fails, uniform⟩ := h
  have rendered {e : Expr} {b : β} (made : r e = .ok b) : ∃ c, e.code s = .ok c ∧ R (.ok c) = .ok b := by
    rw [eq] at made
    cases code : e.code s with
    | ok c => exact ⟨c, rfl, code ▸ made⟩
    | error error =>
      obtain ⟨error', failed⟩ := fails error
      rw [code, failed] at made
      cases made
  rcases uniform with ⟨error, failed⟩ | ⟨F, hF, always⟩
  · refine .inl fun e b made => ?_
    obtain ⟨c, -, made⟩ := rendered made
    simp [failed c] at made
  · refine .inr ⟨F, hF, fun e b made => ?_⟩
    obtain ⟨c, code, made⟩ := rendered made
    exact ⟨c, code, Except.ok.inj (made.symm.trans (always c))⟩

end Computations

section Hole

variable {s : Style}

theorem Settles.id : Settles s Embeds fun e => e.code s :=
  ⟨fun r => r, fun _ => rfl, fun error => ⟨error, rfl⟩, .inr ⟨fun c => c, .hole, fun _ => rfl⟩⟩

/-- A hole in a hole, if what is made of the code composes. -/
theorem Settles.comp_of {P Q T : (Code → Code) → Prop} (compose : ∀ {F G}, P F → Q G → T fun c => F (G c))
    {r : Expr → Rendered Code} {inner : Expr → Expr} (outer : Settles s P r)
    (h : Settles s Q fun e => (inner e).code s) : Settles s T fun e => r (inner e) := by
  obtain ⟨R, eq, fails, uniform⟩ := outer
  obtain ⟨R', eq', fails', uniform'⟩ := h
  refine ⟨fun x => R (R' x), fun e => (eq _).trans (congrArg R (eq' e)), fun error => ?_, ?_⟩
  · obtain ⟨error', failed⟩ := fails' error
    obtain ⟨error'', failed'⟩ := fails error'
    exact ⟨error'', (congrArg R failed).trans failed'⟩
  · rcases uniform' with ⟨error, failed⟩ | ⟨G, hG, made⟩
    · obtain ⟨error', failed'⟩ := fails error
      exact .inl ⟨error', fun c => (congrArg R (failed c)).trans failed'⟩
    · rcases uniform with ⟨error, failed⟩ | ⟨F, hF, made'⟩
      · exact .inl ⟨error, fun c => (congrArg R (made c)).trans (failed _)⟩
      · exact .inr ⟨fun c => F (G c), compose hF hG, fun c => (congrArg R (made c)).trans (made' _)⟩

theorem Settles.comp {r : Expr → Rendered Code} {inner : Expr → Expr} (outer : Settles s Encloses r)
    (h : Settles s Embeds fun e => (inner e).code s) : Settles s Embeds fun e => r (inner e) :=
  Settles.comp_of (fun hF hG => (hF.comp hG).embeds) outer h

end Hole

/-! ## Statements and branches with a hole -/

section Branches

variable {F : Code → Code}

theorem Embeds.constant (h : Embeds F) (name : Text) : Encloses fun c => Code.constant name (F c) :=
  (h.prepend _).append rfl

theorem Embeds.result (h : Embeds F) : Encloses fun c => Code.result (F c) := (h.prepend _).append rfl

theorem LinesEnclose.closure {H : Code → List Line} (h : LinesEnclose H) : Encloses fun c => .closure (H c) :=
  (h.body _ _).layout

/-- A branch of which the value has the hole. -/
theorem Embeds.branch (h : Embeds F) (bindings : List (Text × Code)) :
    LinesEnclose fun c => Branch.lines ⟨bindings, F c⟩ := by
  simp only [Branch.lines]
  exact h.result.line.prepend _

/-- A branch in which a constant has the hole. -/
theorem LinesEnclose.branch_binding (front : List (Text × Code)) (name : Text) (back : List (Text × Code))
    (body : Code) : LinesEnclose fun c => Branch.lines ⟨front ++ (name, c) :: back, body⟩ := by
  simp only [Branch.lines, List.map_append, List.map_cons, List.append_assoc]
  exact ((Embeds.hole.constant name).line.append _).prepend _

theorem Embeds.guardCode (h : Embeds F) (bindings : List (Text × Code)) :
    Encloses fun c => Chain.guardCode bindings (F c) := by
  unfold Chain.guardCode
  split
  · exact (h.prepend _).append rfl
  · exact (h.branch bindings).closure

end Branches

/-! ## Lists in which one part has the hole -/

section Lists

variable {s : Style} {F : Code → Code}

/-- The code of the hole is one of several. -/
def IsAmong (F : Code → List Code) : Prop := ∃ front back, F = fun c => front ++ c :: back

/-- The code of the hole is one of several, under a name. -/
def IsNamedAmong (name : Text) (F : Code → List (Text × Code)) : Prop :=
  ∃ front back, F = fun c => front ++ (name, c) :: back

theorem settles_codes (before after : List Expr) :
    Settles s IsAmong fun e => Expr.codes s (before ++ e :: after) := by
  induction before with
  | nil =>
    simp only [List.nil_append, Expr.codes]
    exact .hole (.after _ fun back _ => .pure ⟨[], back, rfl⟩)
  | cons first rest ih =>
    simp only [List.cons_append, Expr.codes]
    refine .after _ fun c _ => ih.bind ?_
    rintro _ ⟨front, back, rfl⟩
    exact .pure ⟨c :: front, back, rfl⟩

theorem settles_fields (before : List NamedExpr) (name : Text) (after : List NamedExpr) :
    Settles s (IsNamedAmong name) fun e => NamedExpr.codes s (before ++ ⟨name, e⟩ :: after) := by
  induction before with
  | nil =>
    simp only [List.nil_append, NamedExpr.codes]
    exact .hole (.after _ fun back _ => .pure ⟨[], back, rfl⟩)
  | cons first rest ih =>
    obtain ⟨name', value⟩ := first
    simp only [List.cons_append, NamedExpr.codes]
    refine .after _ fun c _ => ih.bind ?_
    rintro _ ⟨front, back, rfl⟩
    exact .pure ⟨(name', c) :: front, back, rfl⟩

/-- The code of the hole is on one of several lines. -/
theorem settles_lines (before : List Statement) (st : StatementFrame) (after : List Statement) :
    Settles s LinesEnclose fun e => Statement.lines s (before ++ st.fill e :: after) := by
  induction before with
  | nil =>
    cases st with
    | bind name =>
      simp only [List.nil_append, StatementFrame.fill, Statement.lines]
      exact .hole (.after _ fun back _ => .pure (Embeds.hole.constant name |>.line.append back))
    | effect =>
      simp only [List.nil_append, StatementFrame.fill, Statement.lines]
      exact .hole (.after _ fun back _ => .pure ((Embeds.hole.append rfl).line.append back))
  | cons first rest ih =>
    cases first with
    | bind name value =>
      simp only [List.cons_append, Statement.lines]
      exact .after _ fun c _ => ih.bind fun F hF => .pure (hF.prepend [_])
    | effect e =>
      simp only [List.cons_append, Statement.lines]
      exact .after _ fun c _ => ih.bind fun F hF => .pure (hF.prepend [_])
    | foreign node =>
      simp only [List.cons_append, Statement.lines]
      exact .error _

/-- A chain that writes the code of the hole once, wherever the chain starts. -/
def ChainEncloses (F : Code → Chain) : Prop := ∀ opened, LinesEnclose fun c => (F c).lines opened

theorem ChainEncloses.test_rest {F : Code → Chain} (h : ChainEncloses F) (condition : Code) (guard : Option Code)
    (branch : Branch) : ChainEncloses fun c => .test condition guard branch (F c) := fun opened => by
  simp only [Chain.lines]
  exact (h true).prepend [_]

theorem ChainEncloses.test_guard (condition : Code) (branch : Branch) (rest : Chain) :
    ChainEncloses fun c => .test condition (some c) branch rest := fun opened => by
  simp only [Chain.lines]
  have opening : Encloses fun c => Chain.openingCode opened (Chain.testCode condition (some c) branch.bindings) :=
    (((Embeds.hole.guardCode branch.bindings).prepend _).prepend _).append _
  exact (opening.opening branch.lines _).append (rest.lines true)

theorem ChainEncloses.test_branch (condition : Code) (guard : Option Code) (bindings : List (Text × Code))
    (rest : Chain) : ChainEncloses fun c => .test condition guard ⟨bindings, c⟩ rest := fun opened => by
  simp only [Chain.lines]
  exact ((Embeds.hole.branch bindings).body _ _).append (rest.lines true)

theorem ChainEncloses.otherwise (bindings : List (Text × Code)) :
    ChainEncloses fun c => .otherwise ⟨bindings, c⟩ := fun opened => by
  cases opened with
  | false => exact Embeds.hole.branch bindings
  | true => exact ((Embeds.hole.branch bindings).body _ _).append [.lineEnd]

/-- A chain of arms, one of which has the hole, after arms that may let a value pass. -/
theorem settles_chain (assemblyScript : s.dialect = .assemblyScript) (value fallback : Code) {before : List Arm}
    (reached : ∀ a ∈ before, a.isCatchAll = false) (arm : ArmFrame) (after : List Arm) :
    Settles s ChainEncloses fun e => Arm.chain s value fallback (before ++ arm.fill e :: after) := by
  induction before with
  | nil =>
    cases arm with
    | inGuard pattern body =>
      simp only [List.nil_append, ArmFrame.fill, Arm.chain]
      refine .after _ fun m _ => .hole (.after _ fun body _ => .after _ fun rest _ => .pure ?_)
      exact .test_guard _ _ rest
    | inBody pattern guard =>
      cases guard with
      | none =>
        simp only [List.nil_append, ArmFrame.fill, Arm.chain]
        refine .after _ fun m _ => .hole ?_
        split
        · exact .pure (.otherwise _)
        · exact .after _ fun rest _ => .pure (.test_branch _ _ _ rest)
      | some guard =>
        simp only [List.nil_append, ArmFrame.fill, Arm.chain]
        exact .after _ fun m _ => .after _ fun guard _ => .hole (.after _ fun rest _ => .pure (.test_branch _ _ _ rest))
  | cons a rest ih =>
    obtain ⟨refutable, others⟩ := List.forall_mem_cons.mp reached
    simp only [List.cons_append, Arm.chain_cons]
    refine .after _ fun r rendered => ?_
    simp only [Arm.isCatchAll_of_rendered assemblyScript rendered, refutable, Bool.false_eq_true, if_false]
    exact (ih others).bind fun F hF => .pure (hF.test_rest r.condition r.guard r.branch)

end Lists

end ExprScript
