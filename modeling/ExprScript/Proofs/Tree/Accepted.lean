import ExprScript.Proofs.Tree.Decode
import ExprScript.Proofs.Tree.WellFormed

/-!
# What decoding accepts

Decoding gives well-formed trees only: `Decode.expr_wellFormed`, `Decode.pattern_wellFormed`, `Decode.decl_wellFormed`
and `Decode.module_wellFormed`. Every part of a tree is read from a smaller part of the value, so the proof goes by
induction on the size of what was found.
-/

namespace ExprScript.Decode

open Decoded Outcome

/-! ## Values without nodes in them -/

theorem integerAt_isInteger {name : Text} {ms : List Member} {x : Number} (h : integerAt name ms = .ok x) :
    x.isInteger = true := by
  rw [integerAt, within_eq_ok_iff] at h
  unfold integer at h
  split at h
  · split at h
    · rename_i hx
      exact Except.ok.inj h ▸ hx
    · exact absurd h fail_ne_ok
  · exact absurd h fail_ne_ok

theorem binaryOp_isSome {found : Found} {op : Text} (h : binaryOp found = .ok op) :
    (BinaryOp.ofName? op).isSome = true := by
  obtain ⟨t, -, h⟩ := bind_eq_ok_iff.mp h
  split at h
  · rename_i known
    exact Except.ok.inj h ▸ known
  · exact absurd h fail_ne_ok

theorem unaryOp_isSome {found : Found} {op : Text} (h : unaryOp found = .ok op) :
    (UnaryOp.ofName? op).isSome = true := by
  obtain ⟨t, -, h⟩ := bind_eq_ok_iff.mp h
  split at h
  · rename_i known
    exact Except.ok.inj h ▸ known
  · exact absurd h fail_ne_ok

theorem literal_isLiteral {e e' : Expr} (wf : e.isWellFormed = true) (h : literal e = .ok e') :
    e'.isLiteral = true ∧ e'.isWellFormed = true := by
  cases e with
  | int value => cases h; exact ⟨rfl, wf⟩
  | string value => cases h; exact ⟨rfl, wf⟩
  | bool value => cases h; exact ⟨rfl, wf⟩
  | foreign node => simp [Expr.isWellFormed] at wf
  | _ => simp [literal, Expr.kind?] at h

/-! ## Parts are read from smaller values -/

/-- What a reader gives was read from a value below a bound. -/
def ReadBelow {α : Type} (bound : Nat) (read : Found → Decoded α) (a : α) : Prop :=
  ∃ part, sizeOf part < bound ∧ read part = .ok a

theorem ReadBelow.of_lt {α : Type} {m n : Nat} {read : Found → Decoded α} {a : α} (h : ReadBelow m read a)
    (lt : m < n) : ReadBelow n read a := by
  obtain ⟨part, below, h⟩ := h
  exact ⟨part, Nat.lt_trans below lt, h⟩

/-- The value of a member is below the object. -/
theorem readBelow_member {α : Type} {read : Found → Decoded α} {name : Text} {ms : List Member} {a : α}
    (h : within (.member name) (read (Json.find name ms)) = .ok a) :
    ReadBelow (sizeOf (Found.value (.object ms))) read a :=
  ⟨_, sizeOf_find_lt_object name ms, within_eq_ok_iff.mp h⟩

/-- The elements of a member are below the object. -/
theorem readBelow_elements {α : Type} {read : Found → Decoded α} {name : Text} {ms : List Member} {as : List α}
    (h : within (.member name) (arrayWith read (Json.find name ms)) = .ok as) {a : α} (mem : a ∈ as) :
    ReadBelow (sizeOf (Found.value (.object ms))) read a := by
  obtain ⟨items, found, all⟩ := arrayWith_eq_ok_iff.mp (within_eq_ok_iff.mp h)
  obtain ⟨j, hj, read_j⟩ := exists_of_forall₂ all mem
  have lt := sizeOf_find_lt_object name ms
  rw [found] at lt
  exact ⟨_, Nat.lt_trans (sizeOf_value_lt_array hj) lt, read_j⟩

/-- A named expression is read from an object that holds its value. -/
theorem namedExpr_readBelow {found : Found} {f : NamedExpr} (h : namedExpr found = .ok f) :
    ReadBelow (sizeOf found) expr f.value := by
  rw [namedExpr.eq_def] at h
  split at h
  · simp only [bind_eq_ok_iff, pure_eq_ok, Except.ok.injEq] at h
    obtain ⟨name, -, value, hv, rfl⟩ := h
    rw [exprAt] at hv
    exact readBelow_member hv
  · exact absurd h fail_ne_ok

/-- A field of a record pattern is read from an object that holds its pattern. -/
theorem namedPattern_readBelow {found : Found} {f : NamedPattern} (h : Decode.namedPattern found = .ok f) :
    ReadBelow (sizeOf found) pattern f.pattern := by
  rw [namedPattern.eq_def] at h
  split at h
  · simp only [bind_eq_ok_iff, pure_eq_ok, Except.ok.injEq] at h
    obtain ⟨name, -, p, hp, rfl⟩ := h
    rw [patternAt] at hp
    exact readBelow_member hp
  · exact absurd h fail_ne_ok

/-- An arm is read from an object that holds its pattern, its guard and its body. -/
theorem arm_readBelow {found : Found} {a : Arm} (h : arm found = .ok a) :
    ReadBelow (sizeOf found) pattern a.pattern ∧ (∀ g ∈ a.guard, ReadBelow (sizeOf found) expr g) ∧
      ReadBelow (sizeOf found) expr a.body := by
  rw [arm.eq_def] at h
  split at h
  · simp only [bind_eq_ok_iff, patternAt, exprAt] at h
    obtain ⟨p, hp, body, hb, h⟩ := h
    split at h
    · cases h
      exact ⟨readBelow_member hp, by simp, readBelow_member hb⟩
    · simp only [bind_eq_ok_iff, pure_eq_ok, Except.ok.injEq] at h
      obtain ⟨g, hg, rfl⟩ := h
      exact ⟨readBelow_member hp, by simpa using readBelow_member hg, readBelow_member hb⟩
  · exact absurd h fail_ne_ok

/-- A statement is no foreign node, and is read from an object that holds its expression. -/
theorem statement_readBelow {found : Found} {st : Statement} (h : statement found = .ok st) :
    ∃ e, st.expr? = some e ∧ ReadBelow (sizeOf found) expr e := by
  rw [statement.eq_def] at h
  split at h
  · simp only [bind_eq_ok_iff, exprAt] at h
    obtain ⟨kind, -, h⟩ := h
    cases hk : StatementKind.ofName? kind with
    | none => simp [hk] at h
    | some k =>
      rw [hk] at h
      cases k with
      | bind =>
        simp only [bind_eq_ok_iff, pure_eq_ok, Except.ok.injEq] at h
        obtain ⟨name, -, e, he, rfl⟩ := h
        exact ⟨e, rfl, readBelow_member he⟩
      | effect =>
        simp only [bind_eq_ok_iff, pure_eq_ok, Except.ok.injEq] at h
        obtain ⟨e, he, rfl⟩ := h
        exact ⟨e, rfl, readBelow_member he⟩
  · exact absurd h fail_ne_ok

/-! ## The induction -/

/-- What is read from a value is well-formed. -/
def GivesWellFormed (found : Found) : Prop :=
  (∀ e, expr found = .ok e → e.isWellFormed = true) ∧ ∀ p, pattern found = .ok p → p.isWellFormed = true

section Step

-- The hypothesis of the induction, for an object with members `ms`.
variable {ms : List Member} (ih : ∀ part, sizeOf part < sizeOf (Found.value (.object ms)) → GivesWellFormed part)

include ih

theorem expr_of_readBelow {e : Expr} (h : ReadBelow (sizeOf (Found.value (.object ms))) expr e) :
    e.isWellFormed = true := by
  obtain ⟨part, lt, h⟩ := h
  exact (ih part lt).1 e h

theorem pattern_of_readBelow {p : Pattern} (h : ReadBelow (sizeOf (Found.value (.object ms))) pattern p) :
    p.isWellFormed = true := by
  obtain ⟨part, lt, h⟩ := h
  exact (ih part lt).2 p h

theorem exprAt_wellFormed {name : Text} {e : Expr} (h : exprAt name ms = .ok e) : e.isWellFormed = true := by
  rw [exprAt] at h
  exact expr_of_readBelow ih (readBelow_member h)

theorem patternAt_wellFormed {name : Text} {p : Pattern} (h : patternAt name ms = .ok p) : p.isWellFormed = true := by
  rw [patternAt] at h
  exact pattern_of_readBelow ih (readBelow_member h)

theorem exprsAt_wellFormed {name : Text} {es : List Expr} (h : exprsAt name ms = .ok es) :
    Expr.allWellFormed es = true := by
  rw [exprsAt, exprs_eq] at h
  exact Expr.allWellFormed_iff.mpr fun e he => expr_of_readBelow ih (readBelow_elements h he)

theorem patternsAt_wellFormed {name : Text} {ps : List Pattern} (h : patternsAt name ms = .ok ps) :
    Pattern.allWellFormed ps = true := by
  rw [patternsAt, patterns_eq] at h
  exact Pattern.allWellFormed_iff.mpr fun p hp => pattern_of_readBelow ih (readBelow_elements h hp)

theorem namedExprsAt_wellFormed {name : Text} {fs : List NamedExpr} (h : namedExprsAt name ms = .ok fs) :
    NamedExpr.allWellFormed fs = true := by
  rw [namedExprsAt, namedExprs_eq] at h
  refine NamedExpr.allWellFormed_iff.mpr fun f hf => ?_
  obtain ⟨part, lt, read⟩ := readBelow_elements h hf
  exact expr_of_readBelow ih ((namedExpr_readBelow read).of_lt lt)

theorem namedPatternsAt_wellFormed {name : Text} {fs : List NamedPattern} (h : namedPatternsAt name ms = .ok fs) :
    NamedPattern.allWellFormed fs = true := by
  rw [namedPatternsAt, namedPatterns_eq] at h
  refine NamedPattern.allWellFormed_iff.mpr fun f hf => ?_
  obtain ⟨part, lt, read⟩ := readBelow_elements h hf
  exact pattern_of_readBelow ih ((namedPattern_readBelow read).of_lt lt)

theorem statementsAt_wellFormed {name : Text} {sts : List Statement} (h : statementsAt name ms = .ok sts) :
    Statement.allWellFormed sts = true := by
  rw [statementsAt, statements_eq] at h
  refine Statement.allWellFormed_iff.mpr fun st hst => ?_
  obtain ⟨part, lt, read⟩ := readBelow_elements h hst
  obtain ⟨e, he, below⟩ := statement_readBelow read
  have wf := expr_of_readBelow ih (below.of_lt lt)
  cases st with
  | bind name value => exact (Option.some.inj he) ▸ wf
  | effect expr => exact (Option.some.inj he) ▸ wf
  | foreign node => exact nomatch he

theorem armsAt_wellFormed {name : Text} {as : List Arm} (h : armsAt name ms = .ok as) :
    (!as.isEmpty) = true ∧ Arm.allWellFormed as = true := by
  rw [armsAt, arms_eq] at h
  split at h
  · simp at h
  · rename_i nonempty
    constructor
    · obtain ⟨items, found, all⟩ := arrayWith_eq_ok_iff.mp (within_eq_ok_iff.mp h)
      cases all with
      | nil => exact absurd found nonempty
      | cons _ _ => rfl
    · refine Arm.allWellFormed_iff.mpr fun a ha => ?_
      obtain ⟨part, lt, read⟩ := readBelow_elements h ha
      obtain ⟨hp, hg, hb⟩ := arm_readBelow read
      exact ⟨pattern_of_readBelow ih (hp.of_lt lt), fun g mem => expr_of_readBelow ih ((hg g mem).of_lt lt),
        expr_of_readBelow ih (hb.of_lt lt)⟩

theorem literalAt_wellFormed {name : Text} {e : Expr} (h : literalAt name ms = .ok e) :
    e.isLiteral = true ∧ e.isWellFormed = true := by
  rw [literalAt, within_eq_ok_iff] at h
  obtain ⟨value, hv, h⟩ := bind_eq_ok_iff.mp h
  exact literal_isLiteral ((ih _ (sizeOf_find_lt_object name ms)).1 value hv) h

/-- An expression that is read from an object is well-formed if its parts are. -/
theorem expr_object_wellFormed {e : Expr} (h : expr (.value (.object ms)) = .ok e) : e.isWellFormed = true := by
  rw [expr] at h
  obtain ⟨kind, -, h⟩ := bind_eq_ok_iff.mp h
  cases hk : ExprKind.ofName? kind with
  | none => simp [hk] at h
  | some k =>
    rw [hk] at h
    cases k <;> simp only [bind_eq_ok_iff, pure_eq_ok, Except.ok.injEq, within_eq_ok_iff] at h
    case int =>
      obtain ⟨x, hx, rfl⟩ := h
      exact integerAt_isInteger hx
    case string | bool | «variable» =>
      obtain ⟨_, -, rfl⟩ := h
      rfl
    case list =>
      obtain ⟨es, hes, rfl⟩ := h
      exact exprsAt_wellFormed ih hes
    case record =>
      obtain ⟨fs, hfs, rfl⟩ := h
      exact namedExprsAt_wellFormed ih hfs
    case qualified =>
      obtain ⟨_, -, _, -, rfl⟩ := h
      rfl
    case binary =>
      obtain ⟨op, hop, l, hl, r, hr, rfl⟩ := h
      simp [Expr.isWellFormed, binaryOp_isSome hop, exprAt_wellFormed ih hl, exprAt_wellFormed ih hr]
    case unary =>
      obtain ⟨op, hop, e, he, rfl⟩ := h
      simp [Expr.isWellFormed, unaryOp_isSome hop, exprAt_wellFormed ih he]
    case call =>
      obtain ⟨f, hf, es, hes, rfl⟩ := h
      simp [Expr.isWellFormed, exprAt_wellFormed ih hf, exprsAt_wellFormed ih hes]
    case construct =>
      obtain ⟨_, -, es, hes, rfl⟩ := h
      exact exprsAt_wellFormed ih hes
    case recordCreate =>
      obtain ⟨_, -, fs, hfs, rfl⟩ := h
      exact namedExprsAt_wellFormed ih hfs
    case recordUpdate =>
      obtain ⟨t, ht, fs, hfs, rfl⟩ := h
      simp [Expr.isWellFormed, exprAt_wellFormed ih ht, namedExprsAt_wellFormed ih hfs]
    case field =>
      obtain ⟨t, ht, _, -, rfl⟩ := h
      simpa [Expr.isWellFormed] using exprAt_wellFormed ih ht
    case index =>
      obtain ⟨t, ht, i, hi, rfl⟩ := h
      simp [Expr.isWellFormed, exprAt_wellFormed ih ht, exprAt_wellFormed ih hi]
    case ifThenElse =>
      obtain ⟨c, hc, y, hy, n, hn, rfl⟩ := h
      simp [Expr.isWellFormed, exprAt_wellFormed ih hc, exprAt_wellFormed ih hy, exprAt_wellFormed ih hn]
    case letIn =>
      obtain ⟨fs, hfs, b, hb, rfl⟩ := h
      simp [Expr.isWellFormed, namedExprsAt_wellFormed ih hfs, exprAt_wellFormed ih hb]
    case caseOf =>
      obtain ⟨s, hs, as, has, rfl⟩ := h
      simp [Expr.isWellFormed, exprAt_wellFormed ih hs, armsAt_wellFormed ih has]
    case lambda =>
      obtain ⟨_, -, b, hb, rfl⟩ := h
      simpa [Expr.isWellFormed] using exprAt_wellFormed ih hb
    case tryCatch =>
      obtain ⟨b, hb, as, has, rfl⟩ := h
      simp [Expr.isWellFormed, exprAt_wellFormed ih hb, armsAt_wellFormed ih has]
    case doBlock =>
      obtain ⟨sts, hsts, r, hr, rfl⟩ := h
      simp [Expr.isWellFormed, statementsAt_wellFormed ih hsts, exprAt_wellFormed ih hr]
    case map | filter =>
      obtain ⟨c, hc, _, -, t, ht, rfl⟩ := h
      simp [Expr.isWellFormed, exprAt_wellFormed ih hc, exprAt_wellFormed ih ht]
    case fold =>
      obtain ⟨c, hc, i, hi, _, -, _, -, t, ht, rfl⟩ := h
      simp [Expr.isWellFormed, exprAt_wellFormed ih hc, exprAt_wellFormed ih hi, exprAt_wellFormed ih ht]
    case annotate =>
      obtain ⟨e, he, _, -, rfl⟩ := h
      simpa [Expr.isWellFormed] using exprAt_wellFormed ih he

/-- A pattern that is read from an object is well-formed if its parts are. -/
theorem pattern_object_wellFormed {p : Pattern} (h : pattern (.value (.object ms)) = .ok p) :
    p.isWellFormed = true := by
  rw [pattern] at h
  obtain ⟨kind, -, h⟩ := bind_eq_ok_iff.mp h
  cases hk : PatternKind.ofName? kind with
  | none => simp [hk] at h
  | some k =>
    rw [hk] at h
    cases k <;> simp only [bind_eq_ok_iff, pure_eq_ok, Except.ok.injEq] at h
    case wildcard =>
      subst h
      rfl
    case «variable» =>
      obtain ⟨_, -, rfl⟩ := h
      rfl
    case literal =>
      obtain ⟨e, he, rfl⟩ := h
      simp [Pattern.isWellFormed, literalAt_wellFormed ih he]
    case constructor =>
      obtain ⟨_, -, ps, hps, rfl⟩ := h
      exact patternsAt_wellFormed ih hps
    case record =>
      obtain ⟨fs, hfs, rfl⟩ := h
      exact namedPatternsAt_wellFormed ih hfs
    case list =>
      obtain ⟨ps, hps, h⟩ := h
      split at h
      · cases h
        exact patternsAt_wellFormed ih hps
      · simp only [bind_eq_ok_iff, Except.ok.injEq] at h
        obtain ⟨t, ht, rfl⟩ := h
        simp [Pattern.isWellFormed, patternsAt_wellFormed ih hps, patternAt_wellFormed ih ht]
    case «alias» =>
      obtain ⟨_, -, p, hp, rfl⟩ := h
      simpa [Pattern.isWellFormed] using patternAt_wellFormed ih hp
    case or =>
      obtain ⟨ps, hps, h⟩ := h
      split at h
      · simp at h
      · rename_i nonempty
        cases h
        simp [Pattern.isWellFormed, patternsAt_wellFormed ih hps, nonempty]

end Step

/-- What is no object is read neither as an expression nor as a pattern. -/
theorem givesWellFormed_of_no_object {found : Found} (h : ∀ ms, found ≠ .value (.object ms)) :
    GivesWellFormed found := by
  constructor
  · intro e he
    rw [expr.eq_def] at he
    split at he
    · rename_i ms
      exact absurd rfl (h ms)
    · exact absurd he fail_ne_ok
  · intro p hp
    rw [pattern.eq_def] at hp
    split at hp
    · rename_i ms
      exact absurd rfl (h ms)
    · exact absurd hp fail_ne_ok

theorem givesWellFormed (found : Found) : GivesWellFormed found := by
  by_cases object : ∃ ms, found = .value (.object ms)
  · obtain ⟨ms, eq⟩ := object
    have ih : ∀ part, sizeOf part < sizeOf (Found.value (.object ms)) → GivesWellFormed part :=
      fun part lt => givesWellFormed part
    rw [eq]
    exact ⟨fun e h => expr_object_wellFormed ih h, fun p h => pattern_object_wellFormed ih h⟩
  · exact givesWellFormed_of_no_object fun ms e => object ⟨ms, e⟩
termination_by sizeOf found
decreasing_by exact eq ▸ lt

/-- **Decoding gives well-formed expressions only.** -/
theorem expr_wellFormed {found : Found} {e : Expr} (h : expr found = .ok e) : e.isWellFormed = true :=
  (givesWellFormed found).1 e h

/-- **Decoding gives well-formed patterns only.** -/
theorem pattern_wellFormed {found : Found} {p : Pattern} (h : pattern found = .ok p) : p.isWellFormed = true :=
  (givesWellFormed found).2 p h

/-- Decoding gives well-formed declarations only. -/
theorem decl_wellFormed {found : Found} {d : Decl} (h : decl found = .ok d) : d.isWellFormed = true := by
  unfold decl at h
  split at h
  · simp only [bind_eq_ok_iff, exprAt] at h
    obtain ⟨kind, -, exported, -, h⟩ := h
    cases hk : DeclKind.ofName? kind with
    | none => simp [hk] at h
    | some k =>
      rw [hk] at h
      cases k with
      | const =>
        simp only [bind_eq_ok_iff, pure_eq_ok, Except.ok.injEq, within_eq_ok_iff] at h
        obtain ⟨_, -, _, -, value, hv, rfl⟩ := h
        exact expr_wellFormed hv
      | function =>
        simp only [bind_eq_ok_iff, pure_eq_ok, Except.ok.injEq, within_eq_ok_iff] at h
        obtain ⟨_, -, _, -, _, -, body, hb, rfl⟩ := h
        exact expr_wellFormed hb
  · exact absurd h fail_ne_ok

/-- Decoding gives well-formed modules only. -/
theorem module_wellFormed {found : Found} {m : Module} (h : Decode.module found = .ok m) : m.isWellFormed = true := by
  unfold Decode.module at h
  split at h
  · simp only [bind_eq_ok_iff, pure_eq_ok, Except.ok.injEq, within_eq_ok_iff, decls_eq] at h
    obtain ⟨ds, hds, rfl⟩ := h
    obtain ⟨items, -, all⟩ := arrayWith_eq_ok_iff.mp hds
    refine Module.isWellFormed_iff.mpr fun d hd => ?_
    obtain ⟨j, -, read⟩ := exists_of_forall₂ all hd
    exact decl_wellFormed read
  · exact absurd h fail_ne_ok

end ExprScript.Decode
