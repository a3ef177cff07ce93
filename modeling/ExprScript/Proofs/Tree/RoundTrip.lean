import ExprScript.Proofs.Tree.Accepted
import ExprScript.Report.Basic
import ExprScript.Tree.Encode

/-!
# Trees written and read back

Decoding inverts encoding. A well-formed tree is read back as it was (`Expr.decode_encode`, `Pattern.decode_encode`,
`Decl.decode_encode`, `Module.decode_encode`), and since decoding gives well-formed trees only, every tree that it
gives is read back once it is written (`decoding_inverts_encoding`).
-/

namespace ExprScript

open Decode Decoded

/-! ## Lists of parts are written part by part -/

theorem Expr.encodeAll_eq (es : List Expr) : Expr.encodeAll es = es.map Expr.encode := by
  induction es with
  | nil => rfl
  | cons e rest ih => rw [Expr.encodeAll, ih, List.map_cons]

/-- A named expression as JSON. -/
def NamedExpr.encode (f : NamedExpr) : Json := Node.named (Json.string f.name) f.value.encode

theorem NamedExpr.encodeAll_eq (fs : List NamedExpr) : NamedExpr.encodeAll fs = fs.map NamedExpr.encode := by
  induction fs with
  | nil => rfl
  | cons f rest ih =>
    obtain ⟨name, value⟩ := f
    rw [NamedExpr.encodeAll, ih, List.map_cons, NamedExpr.encode]

/-- An arm as JSON. -/
def Arm.encode (a : Arm) : Json := Node.arm a.pattern.encode a.body.encode (a.guard.map Expr.encode)

theorem Arm.encodeAll_eq (arms : List Arm) : Arm.encodeAll arms = arms.map Arm.encode := by
  induction arms with
  | nil => rfl
  | cons a rest ih =>
    obtain ⟨p, guard, body⟩ := a
    cases guard with
    | none => rw [Arm.encodeAll, ih, List.map_cons, Arm.encode, Option.map_none]
    | some g => rw [Arm.encodeAll, ih, List.map_cons, Arm.encode, Option.map_some]

/-- A statement as JSON. -/
def Statement.encode : Statement → Json
  | .bind name value => Node.bind (Json.string name) value.encode
  | .effect expr => Node.effect expr.encode
  | .foreign node => node

theorem Statement.encodeAll_eq (sts : List Statement) : Statement.encodeAll sts = sts.map Statement.encode := by
  induction sts with
  | nil => rfl
  | cons st rest ih => cases st <;> rw [Statement.encodeAll, ih, List.map_cons, Statement.encode]

theorem Pattern.encodeAll_eq (ps : List Pattern) : Pattern.encodeAll ps = ps.map Pattern.encode := by
  induction ps with
  | nil => rfl
  | cons p rest ih => rw [Pattern.encodeAll, ih, List.map_cons]

/-- A field of a record pattern as JSON. -/
def NamedPattern.encode (f : NamedPattern) : Json := Node.namedPattern (Json.string f.name) f.pattern.encode

theorem NamedPattern.encodeAll_eq (fs : List NamedPattern) :
    NamedPattern.encodeAll fs = fs.map NamedPattern.encode := by
  induction fs with
  | nil => rfl
  | cons f rest ih =>
    obtain ⟨name, pattern⟩ := f
    rw [NamedPattern.encodeAll, ih, List.map_cons, NamedPattern.encode]

/-! ## What is written is read back -/

/-- A list that is written element by element is read back if every element is. -/
theorem arrayWith_map {α : Type} {read : Found → Decoded α} {encode : α → Json} {as : List α}
    (h : ∀ a ∈ as, read (.value (encode a)) = .ok a) : arrayWith read (.value (.array (as.map encode))) = .ok as := by
  rw [arrayWith_eq_ok_iff]
  refine ⟨_, rfl, ?_⟩
  rw [List.forall₂_map_left_iff, List.forall₂_same]
  exact h

/-- A well-formed expression is written as an object. -/
theorem Expr.encode_eq_object {e : Expr} (h : e.isWellFormed = true) : ∃ ms, e.encode = .object ms := by
  cases e with
  | foreign node => simp [Expr.isWellFormed] at h
  | _ => exact ⟨_, rfl⟩

/-- A well-formed pattern is written as an object. -/
theorem Pattern.encode_eq_object {p : Pattern} (h : p.isWellFormed = true) : ∃ ms, p.encode = .object ms := by
  cases p with
  | foreign node => simp [Pattern.isWellFormed] at h
  | list elements tail => cases tail <;> exact ⟨_, rfl⟩
  | _ => exact ⟨_, rfl⟩

/-- A node that names its kind first is read by its kind. -/
theorem textAt_kind_bind {α : Type} (kind : Text) (ms : List Member) (f : Text → Decoded α) :
    (textAt "kind" (⟨"kind", .string kind⟩ :: ms) >>= f) = f kind := by
  simp [textAt, Json.find_cons, Decode.text]

section RoundTrip

-- Nodes and readers open to look-ups among the written members, which go by their names.
attribute [local simp] Json.find_cons Json.find_nil Node.ofParts Node.expr Node.pattern Node.statement Node.decl
  Node.givenPart Json.isBlankValue Found.isAbsent Decode.text textAt optionalTextAt Decode.bool boolAt optionalBoolAt
  integer integerAt binaryOp unaryOp

attribute [local simp ↓] textAt_kind_bind

theorem Param.decode_encode (p : Param) : param (.value p.encode) = .ok p := by
  obtain ⟨name, type⟩ := p
  cases type with
  | none => simp [Param.encode, param]
  | some t => simp [Param.encode, param]

theorem decode_params (ps : List Param) : params (.value (.array (ps.map Param.encode))) = .ok ps := by
  rw [params_eq]
  exact arrayWith_map fun p _ => Param.decode_encode p

theorem decode_patterns {ps : List Pattern} (h : ∀ p ∈ ps, pattern (.value p.encode) = .ok p) :
    patterns (.value (.array (Pattern.encodeAll ps))) = .ok ps := by
  rw [patterns_eq, Pattern.encodeAll_eq]
  exact arrayWith_map h

theorem decode_namedPatterns {fs : List NamedPattern}
    (h : ∀ f ∈ fs, pattern (.value f.pattern.encode) = .ok f.pattern) :
    namedPatterns (.value (.array (NamedPattern.encodeAll fs))) = .ok fs := by
  rw [namedPatterns_eq, NamedPattern.encodeAll_eq]
  refine arrayWith_map fun f hf => ?_
  have read := h f hf
  obtain ⟨name, inner⟩ := f
  dsimp only at read
  simp [NamedPattern.encode, Node.namedPattern, Decode.namedPattern, patternAt, read]

/-- A literal is read back. -/
theorem Expr.decode_encode_literal {e : Expr} (hl : e.isLiteral = true) (h : e.isWellFormed = true) :
    expr (.value e.encode) = .ok e ∧ literal e = .ok e := by
  cases e with
  | int value =>
    have : value.isInteger = true := by simpa [Expr.isWellFormed] using h
    simp [Expr.encode, Node.int, expr, literal, Expr.kind?, this]
  | string value => simp [Expr.encode, Node.string, expr, literal, Expr.kind?]
  | bool value => simp [Expr.encode, Node.bool, expr, literal, Expr.kind?]
  | _ => simp [Expr.isLiteral] at hl

/-- A well-formed pattern is read back. -/
theorem Pattern.decode_encode (p : Pattern) (h : p.isWellFormed = true) : pattern (.value p.encode) = .ok p := by
  induction p using Pattern.inductionOn with
  | wildcard => simp [Pattern.encode, Node.wildcard, pattern]
  | var name => simp [Pattern.encode, Node.variablePattern, pattern]
  | literal value =>
    simp only [Pattern.isWellFormed, Bool.and_eq_true] at h
    obtain ⟨read, kept⟩ := Expr.decode_encode_literal h.1 h.2
    simp [Pattern.encode, Node.literalPattern, pattern, literalAt, read, kept]
  | construct name args ih =>
    simp only [Pattern.isWellFormed, Pattern.allWellFormed_iff] at h
    have read := decode_patterns fun p hp => ih p hp (h p hp)
    simp [Pattern.encode, Node.constructorPattern, pattern, patternsAt, read]
  | record fields ih =>
    simp only [Pattern.isWellFormed, NamedPattern.allWellFormed_iff] at h
    have read := decode_namedPatterns fun f hf => ih f hf (h f hf)
    simp [Pattern.encode, Node.recordPattern, pattern, namedPatternsAt, read]
  | list elements tail ih iht =>
    rw [Pattern.isWellFormed_list_iff] at h
    have read := decode_patterns fun p hp => ih p hp (h.1 p hp)
    cases tail with
    | none => simp [Pattern.encode, Node.listPattern, pattern, patternsAt, read]
    | some t =>
      have readTail := iht t rfl (h.2 t rfl)
      obtain ⟨ms, written⟩ := Pattern.encode_eq_object (h.2 t rfl)
      rw [written] at readTail
      simp [Pattern.encode, Node.listPattern, pattern, patternsAt, patternAt, written, read, readTail]
  | named name p ih =>
    have read := ih (by simpa [Pattern.isWellFormed] using h)
    simp [Pattern.encode, Node.aliasPattern, pattern, patternAt, read]
  | choice ps ih =>
    simp only [Pattern.isWellFormed, Pattern.allWellFormed_iff, Bool.and_eq_true] at h
    have read := decode_patterns fun p hp => ih p hp (h.2 p hp)
    have nonempty : ps ≠ [] := by simpa using h.1
    simp [Pattern.encode, Node.orPattern, pattern, patternsAt, read, nonempty]
  | foreign node => simp [Pattern.isWellFormed] at h

theorem decode_exprs {es : List Expr} (h : ∀ e ∈ es, expr (.value e.encode) = .ok e) :
    exprs (.value (.array (Expr.encodeAll es))) = .ok es := by
  rw [exprs_eq, Expr.encodeAll_eq]
  exact arrayWith_map h

theorem decode_namedExprs {fs : List NamedExpr} (h : ∀ f ∈ fs, expr (.value f.value.encode) = .ok f.value) :
    namedExprs (.value (.array (NamedExpr.encodeAll fs))) = .ok fs := by
  rw [namedExprs_eq, NamedExpr.encodeAll_eq]
  refine arrayWith_map fun f hf => ?_
  have read := h f hf
  obtain ⟨name, value⟩ := f
  dsimp only at read
  simp [NamedExpr.encode, Node.named, namedExpr, exprAt, read]

theorem decode_arm {a : Arm} (wf : a.IsWellFormed) (hg : ∀ g ∈ a.guard, expr (.value g.encode) = .ok g)
    (hb : expr (.value a.body.encode) = .ok a.body) : arm (.value a.encode) = .ok a := by
  obtain ⟨p, guard, body⟩ := a
  have hp : pattern (.value p.encode) = .ok p := p.decode_encode wf.1
  dsimp only at hb
  cases guard with
  | none => simp [Arm.encode, Node.arm, arm, patternAt, exprAt, hp, hb]
  | some g =>
    have read := hg g rfl
    obtain ⟨ms, written⟩ := Expr.encode_eq_object (wf.2.1 g rfl)
    rw [written] at read
    simp [Arm.encode, Node.arm, arm, patternAt, exprAt, hp, hb, written, read]

theorem decode_arms {as : List Arm} (nonempty : as ≠ []) (h : ∀ a ∈ as, arm (.value a.encode) = .ok a) :
    arms (.value (.array (Arm.encodeAll as))) = .ok as := by
  rw [arms_eq, Arm.encodeAll_eq]
  obtain ⟨a, rest, rfl⟩ := List.exists_cons_of_ne_nil nonempty
  exact arrayWith_map h

theorem decode_statements {sts : List Statement} (wf : ∀ st ∈ sts, st.IsWellFormed)
    (h : ∀ st ∈ sts, ∀ e ∈ st.expr?, expr (.value e.encode) = .ok e) :
    statements (.value (.array (Statement.encodeAll sts))) = .ok sts := by
  rw [statements_eq, Statement.encodeAll_eq]
  refine arrayWith_map fun st hst => ?_
  have read := h st hst
  cases st with
  | bind name value =>
    simp [Statement.encode, Node.bind, statement, exprAt, read value rfl]
  | effect e => simp [Statement.encode, Node.effect, statement, exprAt, read e rfl]
  | foreign node => exact absurd (wf _ hst) id

/-- A well-formed expression is read back. -/
theorem Expr.decode_encode (e : Expr) (h : e.isWellFormed = true) : expr (.value e.encode) = .ok e := by
  induction e using Expr.inductionOn with
  | int value => exact (Expr.decode_encode_literal rfl h).1
  | string value => exact (Expr.decode_encode_literal rfl h).1
  | bool value => exact (Expr.decode_encode_literal rfl h).1
  | list elements ih =>
    simp only [Expr.isWellFormed, Expr.allWellFormed_iff] at h
    have read := decode_exprs fun e he => ih e he (h e he)
    simp [Expr.encode, Node.list, expr, exprsAt, read]
  | record fields ih =>
    simp only [Expr.isWellFormed, NamedExpr.allWellFormed_iff] at h
    have read := decode_namedExprs fun f hf => ih f hf (h f hf)
    simp [Expr.encode, Node.record, expr, namedExprsAt, read]
  | var name => simp [Expr.encode, Node.var, expr]
  | qualified space name =>
    cases space with
    | none => simp [Expr.encode, Node.qualified, expr]
    | some s => simp [Expr.encode, Node.qualified, expr]
  | binary op left right ihl ihr =>
    simp only [Expr.isWellFormed, Bool.and_eq_true] at h
    simp [Expr.encode, Node.binary, expr, exprAt, h.1.1, ihl h.1.2, ihr h.2]
  | unary op operand ih =>
    simp only [Expr.isWellFormed, Bool.and_eq_true] at h
    simp [Expr.encode, Node.unary, expr, exprAt, h.1, ih h.2]
  | call fn args ihf iha =>
    simp only [Expr.isWellFormed, Expr.allWellFormed_iff, Bool.and_eq_true] at h
    have read := decode_exprs fun e he => iha e he (h.2 e he)
    simp [Expr.encode, Node.call, expr, exprAt, exprsAt, ihf h.1, read]
  | construct name args ih =>
    simp only [Expr.isWellFormed, Expr.allWellFormed_iff] at h
    have read := decode_exprs fun e he => ih e he (h e he)
    simp [Expr.encode, Node.construct, expr, exprsAt, read]
  | recordCreate type fields ih =>
    simp only [Expr.isWellFormed, NamedExpr.allWellFormed_iff] at h
    have read := decode_namedExprs fun f hf => ih f hf (h f hf)
    simp [Expr.encode, Node.recordCreate, expr, namedExprsAt, read]
  | recordUpdate target updates iht ihu =>
    simp only [Expr.isWellFormed, NamedExpr.allWellFormed_iff, Bool.and_eq_true] at h
    have read := decode_namedExprs fun f hf => ihu f hf (h.2 f hf)
    simp [Expr.encode, Node.recordUpdate, expr, exprAt, namedExprsAt, iht h.1, read]
  | field target name ih =>
    simp [Expr.encode, Node.field, expr, exprAt, ih (by simpa [Expr.isWellFormed] using h)]
  | index target i iht ihi =>
    simp only [Expr.isWellFormed, Bool.and_eq_true] at h
    simp [Expr.encode, Node.index, expr, exprAt, iht h.1, ihi h.2]
  | ifThenElse condition yes no ihc ihy ihn =>
    simp only [Expr.isWellFormed, Bool.and_eq_true] at h
    simp [Expr.encode, Node.ifThenElse, expr, exprAt, ihc h.1.1, ihy h.1.2, ihn h.2]
  | letIn bindings body ihs ihb =>
    simp only [Expr.isWellFormed, NamedExpr.allWellFormed_iff, Bool.and_eq_true] at h
    have read := decode_namedExprs fun f hf => ihs f hf (h.1 f hf)
    simp [Expr.encode, Node.letIn, expr, exprAt, namedExprsAt, read, ihb h.2]
  | caseOf scrutinee as ihs iha =>
    simp only [Expr.isWellFormed, Arm.allWellFormed_iff, Bool.and_eq_true] at h
    obtain ⟨⟨hs, hne⟩, ha⟩ := h
    have read := decode_arms (by simpa using hne) fun a m =>
      decode_arm (ha a m) (fun g hg => (iha a m).1 g hg ((ha a m).2.1 g hg)) ((iha a m).2 (ha a m).2.2)
    simp [Expr.encode, Node.caseOf, expr, exprAt, armsAt, ihs hs, read]
  | lambda ps body ih =>
    have read := ih (by simpa [Expr.isWellFormed] using h)
    simp [Expr.encode, Node.lambda, expr, exprAt, paramsAt, decode_params, read]
  | tryCatch body handlers ihb iha =>
    simp only [Expr.isWellFormed, Arm.allWellFormed_iff, Bool.and_eq_true] at h
    obtain ⟨⟨hb, hne⟩, ha⟩ := h
    have read := decode_arms (by simpa using hne) fun a m =>
      decode_arm (ha a m) (fun g hg => (iha a m).1 g hg ((ha a m).2.1 g hg)) ((iha a m).2 (ha a m).2.2)
    simp [Expr.encode, Node.tryCatch, expr, exprAt, armsAt, ihb hb, read]
  | doBlock sts result ihs ihr =>
    simp only [Expr.isWellFormed, Statement.allWellFormed_iff, Bool.and_eq_true] at h
    have read := decode_statements h.1 fun st hst e he => ihs st hst e he (Statement.IsWellFormed.expr? (h.1 st hst) he)
    simp [Expr.encode, Node.doBlock, expr, exprAt, statementsAt, read, ihr h.2]
  | map collection iterator transform ihc iht =>
    simp only [Expr.isWellFormed, Bool.and_eq_true] at h
    simp [Expr.encode, Node.map, expr, exprAt, ihc h.1, iht h.2]
  | filter collection iterator predicate ihc ihp =>
    simp only [Expr.isWellFormed, Bool.and_eq_true] at h
    simp [Expr.encode, Node.filter, expr, exprAt, ihc h.1, ihp h.2]
  | fold collection initial accumulator iterator transform ihc ihi iht =>
    simp only [Expr.isWellFormed, Bool.and_eq_true] at h
    simp [Expr.encode, Node.fold, expr, exprAt, ihc h.1.1, ihi h.1.2, iht h.2]
  | annotate e type ih =>
    simp [Expr.encode, Node.annotate, expr, exprAt, ih (by simpa [Expr.isWellFormed] using h)]
  | foreign node => simp [Expr.isWellFormed] at h

/-- A well-formed declaration is read back. -/
theorem Decl.decode_encode (d : Decl) (h : d.isWellFormed = true) : decl (.value d.encode) = .ok d := by
  cases d with
  | const name type value exported =>
    have read := value.decode_encode h
    cases type <;> simp [Decl.encode, Node.const, Node.exportedOrDefault, decl, exprAt, read]
  | function name ps returnType body exported =>
    have read := body.decode_encode h
    cases returnType <;>
      simp [Decl.encode, Node.function, Node.exportedOrDefault, decl, exprAt, paramsAt, decode_params, read]
  | foreign node => simp [Decl.isWellFormed] at h

/-- A well-formed module is read back. -/
theorem Module.decode_encode (m : Module) (h : m.isWellFormed = true) : Decode.module (.value m.encode) = .ok m := by
  have read : Decode.decls (.value (.array (m.decls.map Decl.encode))) = .ok m.decls := by
    rw [decls_eq]
    exact arrayWith_map fun d hd => d.decode_encode (Module.isWellFormed_iff.mp h d hd)
  simp [Module.encode, Decode.module, read]

end RoundTrip

/-! ## Both directions -/

/-- What decoding a value gives under a root with a name: a tree, or a failure whose path starts at the root. -/
def Decoded.rooted {α : Type} (root : Text) (r : Decoded α) : Except Failure α :=
  r.mapError fun e => (CompileError.decode e).failure root

theorem Decoded.rooted_eq_ok_iff {α : Type} {root : Text} {r : Decoded α} {a : α} :
    r.rooted root = .ok a ↔ r = .ok a := by
  cases r with
  | error e => simp [Decoded.rooted, Except.mapError]
  | ok b => simp [Decoded.rooted, Except.mapError]

/-- Reading under a root gives every well-formed tree back from what is written for it, and gives nothing but
well-formed trees, which it gives back again. -/
def InvertsUnder {α : Type} (root : Text) (read : Found → Decoded α) (encode : α → Json) (wellFormed : α → Bool) :
    Prop :=
  (∀ t, wellFormed t = true → (read (.value (encode t))).rooted root = .ok t) ∧
    ∀ j t, (read (.value j)).rooted root = .ok t →
      wellFormed t = true ∧ (read (.value (encode t))).rooted root = .ok t

/-- A reader that reads well-formed trees back and accepts nothing else inverts the writer. -/
theorem invertsUnder_of {α : Type} {read : Found → Decoded α} {encode : α → Json} {wellFormed : α → Bool}
    (back : ∀ t, wellFormed t = true → read (.value (encode t)) = .ok t)
    (accepted : ∀ {found t}, read found = .ok t → wellFormed t = true) (root : Text) :
    InvertsUnder root read encode wellFormed := by
  refine ⟨fun t wf => Decoded.rooted_eq_ok_iff.mpr (back t wf), fun j t h => ?_⟩
  have wf := accepted (Decoded.rooted_eq_ok_iff.mp h)
  exact ⟨wf, Decoded.rooted_eq_ok_iff.mpr (back t wf)⟩

/-- **Decoding inverts encoding**, for trees of all four sorts and under every root. -/
theorem decoding_inverts_encoding (root : Text) :
    InvertsUnder root Decode.expr Expr.encode Expr.isWellFormed ∧
      InvertsUnder root Decode.pattern Pattern.encode Pattern.isWellFormed ∧
      InvertsUnder root Decode.decl Decl.encode Decl.isWellFormed ∧
      InvertsUnder root Decode.module Module.encode Module.isWellFormed :=
  ⟨invertsUnder_of Expr.decode_encode Decode.expr_wellFormed root,
    invertsUnder_of Pattern.decode_encode Decode.pattern_wellFormed root,
    invertsUnder_of Decl.decode_encode Decode.decl_wellFormed root,
    invertsUnder_of Module.decode_encode Decode.module_wellFormed root⟩

/-- A tree with a guard, a tail, a handler, a statement and a parameter. -/
def roundTripSample : Expr :=
  .caseOf (.variable "xs")
    [⟨.list [.literal (.int (.ofNat 1))] (some (.alias "rest" (.or [.wildcard]))), some (.bool true),
      .lambda [⟨"y", some "i32"⟩] (.binary "Add" (.variable "y") (.qualified none "z"))⟩,
      ⟨.wildcard, none, .tryCatch (.doBlock [.effect (.call (.variable "f") [])] (.string "done"))
        [⟨.record [⟨"code", .variable "c"⟩], none, .unary "Negate" (.variable "c")⟩]⟩]

theorem decoding_inverts_encoding_sample :
    roundTripSample.isWellFormed = true ∧
      (Decode.expr (.value roundTripSample.encode)).rooted "$" = .ok roundTripSample :=
  have wf : roundTripSample.isWellFormed = true := by decide +kernel
  ⟨wf, (decoding_inverts_encoding "$").1.1 roundTripSample wf⟩

end ExprScript
