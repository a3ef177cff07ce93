import ExprScript.Proofs.Chain.Reachable
import ExprScript.Proofs.Lexical.Forms

/-!
# Renderings are self-contained

If the texts that are written as they stand close their own brackets and literals, then so does every rendering.
`renderings_are_self_contained` is the statement for expressions and declarations.

The forms of code come first, each as a template; then patterns, chains of arms and expressions follow by induction on
trees. `Yields P r` says that what `r` gives, if it gives anything, has the property `P`.
-/

namespace ExprScript

/-! ## Results -/

/-- A computation gives nothing, or something with a property. -/
def Yields {α : Type} (P : α → Prop) (r : Rendered α) : Prop := ∀ a, r = .ok a → P a

namespace Yields

variable {α β : Type} {P : α → Prop} {Q : β → Prop}

theorem pure {a : α} (h : P a) : Yields P (Pure.pure a) := by
  rintro _ ⟨⟩
  exact h

theorem error (e : RenderError) : Yields P (.error e) := nofun

theorem bind {x : Rendered α} {f : α → Rendered β} (first : Yields P x) (rest : ∀ a, P a → Yields Q (f a)) :
    Yields Q (x >>= f) := by
  intro b h
  obtain ⟨a, ha, hb⟩ := Outcome.bind_eq_ok_iff.mp h
  exact rest a (first a ha) b hb

theorem mapM {xs : List α} {f : α → Rendered β} (h : ∀ x ∈ xs, Yields Q (f x)) :
    Yields (fun ys => ∀ y ∈ ys, Q y) (xs.mapM f) := by
  intro ys made y mem
  obtain ⟨x, hx, eq⟩ := Outcome.exists_of_forall₂ (Outcome.mapM_eq_ok_iff.mp made) mem
  exact h x hx y eq

end Yields

/-! ## Patterns -/

section Patterns

variable {s : Style} {value : Code}

theorem Expr.yields_of_isLiteral {e : Expr} (h : e.isLiteral = true) : Yields Code.IsSelfContained (e.code s) := by
  cases e with
  | int x =>
    rw [Expr.code]
    exact .pure (.text (Text.isSelfContained_of_isPlain x.isPlain_text))
  | string t =>
    rw [Expr.code]
    exact .pure (.text (Quoted.isSelfContained_encode t))
  | bool b =>
    rw [Expr.code]
    cases b <;> exact .pure (.text rfl)
  | _ => cases h

/-- Parts that are numbered and then compiled. -/
theorem yields_numbered (ref : Nat → Ref) {ps : List Pattern}
    (h : ∀ p ∈ ps, ∀ place, Yields (Matcher.IsSelfContained value) (Pattern.matcher s place p)) :
    Yields (fun ms => ∀ m ∈ ms, m.IsSelfContained value) (ps.zipIdx.mapM fun x => x.1.matcher s (ref x.2)) :=
  .mapM fun x mem => h x.1 (List.fst_mem_of_mem_zipIdx mem) (ref x.2)

theorem Pattern.yields_list (hv : value.IsSelfContained) {elements : List Pattern} {tail : Option Pattern}
    (parts : ∀ p ∈ elements, ∀ place, Yields (Matcher.IsSelfContained value) (Pattern.matcher s place p))
    (rest : ∀ t ∈ tail, ∀ place, Yields (Matcher.IsSelfContained value) (Pattern.matcher s place t)) (place : Ref) :
    Yields (Matcher.IsSelfContained value) ((Pattern.list elements tail).matcher s place) := by
  have front := Pattern.elementMatchers_eq s place elements 0 ▸ yields_numbered (.element place) parts
  have array : (Test.isArray place).IsSelfContained value := .isArray hv place
  have exactly : Matcher.IsSelfContained value ⟨.lengthIs place elements.length, []⟩ := ⟨.lengthIs hv place _, by simp⟩
  cases tail with
  | none =>
    rw [Pattern.matcher]
    exact front.bind fun ms hm => .pure (.conjunction array (List.forall_mem_append.mpr ⟨hm, by simpa using exactly⟩))
  | some t =>
    by_cases wildcard : t = .wildcard
    · subst wildcard
      have always : Matcher.IsSelfContained value ⟨.always, []⟩ := ⟨.text rfl, by simp⟩
      rw [Pattern.matcher]
      exact front.bind fun ms hm =>
        .pure (.conjunction array (List.forall_mem_append.mpr ⟨hm, by simpa using ⟨exactly, always⟩⟩))
    · have atLeast : Matcher.IsSelfContained value ⟨.lengthAtLeast place elements.length, []⟩ :=
        ⟨.lengthAtLeast hv place _, by simp⟩
      rw [Pattern.matcher_openList s place elements wildcard]
      exact front.bind fun ms hm => (rest t rfl _).bind fun m hr =>
        .pure (.conjunction array (List.forall_mem_append.mpr ⟨hm, by simpa using ⟨atLeast, hr⟩⟩))

/-- The matcher of a well-formed pattern is self-contained if its names are. -/
theorem Pattern.yields (hv : value.IsSelfContained) {p : Pattern} (wellFormed : p.isWellFormed = true)
    (names : ∀ t ∈ p.verbatim, t.isSelfContained = true) (place : Ref) :
    Yields (Matcher.IsSelfContained value) (p.matcher s place) := by
  induction p using Pattern.inductionOn generalizing place with
  | wildcard =>
    rw [Pattern.matcher]
    exact .pure ⟨.text rfl, by simp⟩
  | var name =>
    rw [Pattern.verbatim, List.forall_mem_singleton] at names
    rw [Pattern.matcher]
    exact .pure ⟨.text rfl, by simpa using names⟩
  | literal e =>
    rw [Pattern.isWellFormed, Bool.and_eq_true] at wellFormed
    rw [Pattern.matcher]
    exact (Expr.yields_of_isLiteral wellFormed.1).bind fun c hc => .pure ⟨.equals hv place e hc, by simp⟩
  | construct name args ih =>
    rw [Pattern.isWellFormed, Pattern.allWellFormed_iff] at wellFormed
    rw [Pattern.verbatim, List.forall_mem_cons, Pattern.allVerbatim_eq, List.forall_mem_flatMap] at names
    rw [Pattern.matcher, Pattern.argumentMatchers_eq]
    refine (yields_numbered (fun i => .argument place i args.length) fun p mem => ?_).bind fun ms hm =>
      .pure (.conjunction (.instanceOf hv place names.1) hm)
    exact ih p mem (wellFormed p mem) (names.2 p mem)
  | record fields ih =>
    rw [Pattern.isWellFormed, NamedPattern.allWellFormed_iff] at wellFormed
    rw [Pattern.verbatim, NamedPattern.allVerbatim_eq, List.forall_mem_flatMap] at names
    rw [Pattern.matcher, NamedPattern.matchers_eq]
    refine (Yields.mapM fun f mem => ?_).bind fun ms hm => .pure (.conjunction (.notNull hv place) hm)
    exact ih f mem (wellFormed f mem) (names f mem) _
  | list elements tail ih ihTail =>
    obtain ⟨wellFormed, wellFormedTail⟩ := Pattern.isWellFormed_list_iff.mp wellFormed
    rw [Pattern.verbatim_list, List.forall_mem_append, List.forall_mem_flatMap, List.forall_mem_flatMap] at names
    exact Pattern.yields_list hv (fun p mem => ih p mem (wellFormed p mem) (names.1 p mem))
      (fun t mem => ihTail t mem (wellFormedTail t mem) (names.2 t (Option.mem_toList.mpr mem))) place
  | named name p ih =>
    rw [Pattern.isWellFormed] at wellFormed
    rw [Pattern.verbatim, List.forall_mem_cons] at names
    rw [Pattern.matcher]
    exact (ih wellFormed names.2 place).bind fun m hm => .pure ⟨hm.1, List.forall_mem_cons.mpr ⟨names.1, hm.2⟩⟩
  | choice ps ih =>
    rw [Pattern.isWellFormed, Bool.and_eq_true, Pattern.allWellFormed_iff] at wellFormed
    rw [Pattern.verbatim, Pattern.allVerbatim_eq, List.forall_mem_flatMap] at names
    rw [Pattern.matcher_or s place (by simpa using wellFormed.1)]
    refine (Yields.mapM fun p mem => ih p mem (wellFormed.2 p mem) (names p mem) place).bind fun ms hm => ?_
    unfold Matcher.choice
    split
    · exact .pure ⟨.any (List.forall_mem_map.mpr fun m mem => (hm m mem).1), by simp⟩
    · exact .error _
  | foreign node => simp [Pattern.isWellFormed] at wellFormed

end Patterns

/-! ## Lists of parts -/

section Lists

variable {s : Style}

theorem Expr.yields_codes {es : List Expr} (h : ∀ e ∈ es, Yields Code.IsSelfContained (e.code s)) :
    Yields (fun cs => ∀ c ∈ cs, c.IsSelfContained) (Expr.codes s es) := by
  induction es with
  | nil =>
    rw [Expr.codes]
    exact .pure (by simp)
  | cons e rest ih =>
    obtain ⟨first, others⟩ := List.forall_mem_cons.mp h
    rw [Expr.codes]
    exact first.bind fun c hc => (ih others).bind fun cs hcs => .pure (List.forall_mem_cons.mpr ⟨hc, hcs⟩)

/-- Codes with names: the names are those of the expressions. -/
theorem NamedExpr.yields_codes {fields : List NamedExpr}
    (h : ∀ f ∈ fields, Yields Code.IsSelfContained (f.value.code s)) :
    Yields (fun fs => fs.map Prod.fst = fields.map NamedExpr.name ∧ ∀ f ∈ fs, f.2.IsSelfContained)
      (NamedExpr.codes s fields) := by
  induction fields with
  | nil =>
    rw [NamedExpr.codes]
    exact .pure (by simp)
  | cons f rest ih =>
    obtain ⟨first, others⟩ := List.forall_mem_cons.mp h
    obtain ⟨name, value⟩ := f
    rw [NamedExpr.codes]
    refine first.bind fun c hc => (ih others).bind fun fs hfs => .pure ⟨?_, List.forall_mem_cons.mpr ⟨hc, hfs.2⟩⟩
    rw [List.map_cons, List.map_cons, hfs.1]

theorem Statement.yields_lines {sts : List Statement}
    (names : ∀ t ∈ Statement.allVerbatim sts, t.isSelfContained = true)
    (h : ∀ st ∈ sts, ∀ e ∈ st.expr?, (∀ t ∈ e.verbatim, t.isSelfContained = true) →
      Yields Code.IsSelfContained (e.code s)) :
    Yields (fun lines => ∀ l ∈ lines, l.IsSelfContained) (Statement.lines s sts) := by
  induction sts with
  | nil =>
    rw [Statement.lines]
    exact .pure (by simp)
  | cons st rest ih =>
    obtain ⟨first, others⟩ := List.forall_mem_cons.mp h
    cases st with
    | bind name value =>
      simp only [Statement.allVerbatim, List.cons_append, List.forall_mem_cons, List.forall_mem_append] at names
      rw [Statement.lines]
      exact (first value rfl names.2.1).bind fun c hc => (ih names.2.2 others).bind fun ls hls =>
        .pure (List.forall_mem_cons.mpr ⟨isSelfContained_constLine names.1 hc, hls⟩)
    | effect e =>
      rw [Statement.allVerbatim, List.forall_mem_append] at names
      rw [Statement.lines]
      exact (first e rfl names.1).bind fun c hc => (ih names.2 others).bind fun ls hls =>
        .pure (List.forall_mem_cons.mpr ⟨.line (.append hc (.text rfl)), hls⟩)
    | foreign node =>
      rw [Statement.lines]
      exact .error _

/-- An arm with its parts rendered, all of them self-contained. -/
structure RenderedArm.IsSelfContained (r : RenderedArm) : Prop where
  condition : r.condition.IsSelfContained
  guard : ∀ g ∈ r.guard, g.IsSelfContained
  branch : r.branch.IsSelfContained

theorem Arm.yields_rendered (assemblyScript : s.dialect = .assemblyScript) {value : Code} (hv : value.IsSelfContained)
    {a : Arm} (pattern : a.pattern.isWellFormed = true) (names : ∀ t ∈ a.pattern.verbatim, t.isSelfContained = true)
    (guard : ∀ g ∈ a.guard, Yields Code.IsSelfContained (g.code s))
    (body : Yields Code.IsSelfContained (a.body.code s)) :
    Yields RenderedArm.IsSelfContained (a.rendered s value) := by
  intro r rendered
  obtain ⟨m, g, c, compiled, hg, hc, rfl⟩ := Arm.rendered_eq_ok_iff.mp rendered
  have matcher := Pattern.yields hv pattern names .root m compiled
  rw [assemblyScript]
  refine ⟨matcher.1, fun code mem => ?_, ⟨matcher.bindingCodes hv, body c hc⟩⟩
  cases eq : a.guard with
  | none =>
    rw [eq] at hg
    obtain rfl := Except.ok.inj hg
    cases mem
  | some e =>
    rw [eq] at hg
    obtain ⟨code', hcode, rfl⟩ := Outcome.fmap_eq_ok_iff.mp hg
    obtain rfl := Option.some.inj mem
    exact guard e eq code' hcode

theorem Arm.yields_chain {value fallback : Code} (hf : fallback.IsSelfContained) {arms : List Arm}
    (h : ∀ a ∈ arms, Yields RenderedArm.IsSelfContained (a.rendered s value)) :
    Yields Chain.IsSelfContained (Arm.chain s value fallback arms) := by
  induction arms with
  | nil =>
    rw [Arm.chain]
    exact .pure (.fallback hf)
  | cons a rest ih =>
    obtain ⟨first, others⟩ := List.forall_mem_cons.mp h
    rw [Arm.chain_cons]
    refine first.bind fun r hr => ?_
    split
    · exact .pure (.otherwise hr.branch)
    · exact (ih others).bind fun chain hchain => .pure (.test hr.condition hr.guard hr.branch hchain)

end Lists

/-! ## Expressions and declarations -/

/-- The code of a well-formed expression is self-contained if the texts in it that are written as they stand are. -/
theorem Expr.yields {s : Style} (assemblyScript : s.dialect = .assemblyScript)
    (matchVar : s.matchVar.isSelfContained = true) (errorVar : s.errorVar.isSelfContained = true) (e : Expr) :
    e.isWellFormed = true → (∀ t ∈ e.verbatim, t.isSelfContained = true) → Yields Code.IsSelfContained (e.code s) := by
  have chain {value fallback : Code} (hv : value.IsSelfContained) (hf : fallback.IsSelfContained) {arms : List Arm}
      (wf : ∀ a ∈ arms, a.IsWellFormed) (names : ∀ t ∈ Arm.allVerbatim arms, t.isSelfContained = true)
      (ih : ∀ a ∈ arms, (∀ g ∈ a.guard, g.isWellFormed = true → (∀ t ∈ g.verbatim, t.isSelfContained = true) →
          Yields Code.IsSelfContained (g.code s)) ∧ (a.body.isWellFormed = true →
          (∀ t ∈ a.body.verbatim, t.isSelfContained = true) → Yields Code.IsSelfContained (a.body.code s))) :
      Yields Chain.IsSelfContained (Arm.chain s value fallback arms) := by
    simp only [Arm.allVerbatim_eq, List.forall_mem_flatMap, List.forall_mem_append] at names
    refine Arm.yields_chain hf fun a mem => ?_
    obtain ⟨pattern, guard, body⟩ := wf a mem
    obtain ⟨⟨inPattern, inGuard⟩, inBody⟩ := names a mem
    refine Arm.yields_rendered assemblyScript hv pattern inPattern (fun g hg => ?_) ((ih a mem).2 body inBody)
    exact (ih a mem).1 g hg (guard g hg) (inGuard g (Option.mem_toList.mpr hg))
  induction e using Expr.inductionOn with
  | int | string | bool => exact fun _ _ => Expr.yields_of_isLiteral rfl
  | var name =>
    intro _ names
    rw [Expr.verbatim, List.forall_mem_singleton] at names
    rw [Expr.code]
    exact .pure (.text names)
  | qualified space name =>
    intro _ names
    rw [Expr.verbatim, List.forall_mem_append, List.forall_mem_singleton] at names
    rw [Expr.code]
    split
    · rename_i space written
      have inSpace := names.1 space (mem_of_nonEmpty? written)
      exact .pure (.text (Text.isSelfContained_append (Text.isSelfContained_append inSpace rfl) names.2))
    · exact .pure (.text names.2)
  | list elements ih =>
    intro wf names
    rw [Expr.isWellFormed, Expr.allWellFormed_iff] at wf
    rw [Expr.verbatim, Expr.allVerbatim_eq, List.forall_mem_flatMap] at names
    rw [Expr.code]
    refine (Expr.yields_codes fun e mem => ih e mem (wf e mem) (names e mem)).bind fun cs hcs => .pure ?_
    exact Code.isSelfContained_of_template ["[", 0, "]"] [Code.join ", " cs] (by simp [Template.fillPiece]) (by decide)
      (by simpa using .join rfl hcs)
  | record fields ih =>
    intro wf names
    rw [Expr.isWellFormed, NamedExpr.allWellFormed_iff] at wf
    rw [Expr.verbatim, NamedExpr.allVerbatim_eq, List.forall_mem_flatMap] at names
    rw [Expr.code]
    refine (NamedExpr.yields_codes fun f mem => ih f mem (wf f mem) (names f mem)).bind fun fs hfs => .pure ?_
    exact isSelfContained_record hfs.2
  | binary op left right ihLeft ihRight =>
    intro wf names
    simp only [Expr.isWellFormed, Bool.and_eq_true, Option.isSome_iff_exists] at wf
    obtain ⟨⟨⟨known, name⟩, wfLeft⟩, wfRight⟩ := wf
    rw [Expr.verbatim, List.forall_mem_append] at names
    rw [Expr.code, name, assemblyScript]
    exact (ihLeft wfLeft names.1).bind fun l hl => (ihRight wfRight names.2).bind fun r hr =>
      .pure (Template.isSelfContained_fill (Dialect.isSelfContained_binary known) (by simpa using ⟨hl, hr⟩))
  | unary op operand ih =>
    intro wf names
    simp only [Expr.isWellFormed, Bool.and_eq_true, Option.isSome_iff_exists] at wf
    obtain ⟨⟨known, name⟩, wf⟩ := wf
    rw [Expr.verbatim] at names
    rw [Expr.code, name, assemblyScript]
    exact (ih wf names).bind fun c hc =>
      .pure (Template.isSelfContained_fill (Dialect.isSelfContained_unary known) (by simpa using hc))
  | call fn args ihFn ih =>
    intro wf names
    rw [Expr.isWellFormed, Bool.and_eq_true, Expr.allWellFormed_iff] at wf
    rw [Expr.verbatim, Expr.allVerbatim_eq, List.forall_mem_append, List.forall_mem_flatMap] at names
    rw [Expr.code]
    refine (ihFn wf.1 names.1).bind fun fn hf =>
      (Expr.yields_codes fun e mem => ih e mem (wf.2 e mem) (names.2 e mem)).bind fun cs hcs => .pure ?_
    exact Code.isSelfContained_of_template [0, "(", 1, ")"] [fn, Code.join ", " cs]
      (by simp [Template.fillPiece, callHead]) (by decide) (by simpa using ⟨hf, .join rfl hcs⟩)
  | construct name args ih =>
    intro wf names
    rw [Expr.isWellFormed, Expr.allWellFormed_iff] at wf
    rw [Expr.verbatim, List.forall_mem_cons, Expr.allVerbatim_eq, List.forall_mem_flatMap] at names
    rw [Expr.code]
    refine (Expr.yields_codes fun e mem => ih e mem (wf e mem) (names.2 e mem)).bind fun cs hcs => .pure ?_
    exact Code.isSelfContained_of_template ["new ", 0, "(", 1, ")"] [.text name, Code.join ", " cs]
      (by simp [Template.fillPiece]) (by decide) (by simpa using ⟨.text names.1, .join rfl hcs⟩)
  | recordCreate type fields ih =>
    intro wf names
    rw [Expr.isWellFormed, NamedExpr.allWellFormed_iff] at wf
    rw [Expr.verbatim, List.forall_mem_cons, NamedExpr.allVerbatim_eq, List.forall_mem_flatMap] at names
    rw [Expr.code]
    refine (NamedExpr.yields_codes fun f mem => ih f mem (wf f mem) (names.2 f mem)).bind fun fs hfs => .pure ?_
    exact Code.isSelfContained_of_template ["new ", 0, "(", 1, ")"] [.text type, recordCode fs]
      (by simp [Template.fillPiece]) (by decide) (by simpa using ⟨.text names.1, isSelfContained_record hfs.2⟩)
  | recordUpdate target updates ihTarget ih =>
    intro wf names
    rw [Expr.isWellFormed, Bool.and_eq_true, NamedExpr.allWellFormed_iff] at wf
    rw [Expr.verbatim, List.forall_mem_append, NamedExpr.allVerbatim_eq, List.forall_mem_flatMap] at names
    rw [Expr.code]
    exact (ihTarget wf.1 names.1).bind fun c hc =>
      (NamedExpr.yields_codes fun f mem => ih f mem (wf.2 f mem) (names.2 f mem)).bind fun fs hfs =>
        .pure (isSelfContained_update hc hfs.2)
  | field target name ih =>
    intro wf names
    rw [Expr.isWellFormed] at wf
    rw [Expr.verbatim] at names
    rw [Expr.code]
    exact (ih wf names).bind fun c hc => .pure (isSelfContained_property hc name)
  | index target i ihTarget ih =>
    intro wf names
    rw [Expr.isWellFormed, Bool.and_eq_true] at wf
    rw [Expr.verbatim, List.forall_mem_append] at names
    rw [Expr.code]
    refine (ihTarget wf.1 names.1).bind fun c hc => (ih wf.2 names.2).bind fun i hi => .pure ?_
    exact Code.isSelfContained_of_template [0, "[", 1, "]"] [c, i] (by simp [Template.fillPiece, indexHead]) (by decide)
      (by simpa using ⟨hc, hi⟩)
  | ifThenElse condition yes no ihCondition ihYes ihNo =>
    intro wf names
    simp only [Expr.isWellFormed, Bool.and_eq_true] at wf
    simp only [Expr.verbatim, List.forall_mem_append] at names
    rw [Expr.code]
    exact (ihCondition wf.1.1 names.1).bind fun c hc => (ihYes wf.1.2 names.2.1).bind fun y hy =>
      (ihNo wf.2 names.2.2).bind fun n hn => .pure (isSelfContained_conditional hc hy hn)
  | letIn bindings body ih ihBody =>
    intro wf names
    rw [Expr.isWellFormed, Bool.and_eq_true, NamedExpr.allWellFormed_iff] at wf
    simp only [Expr.verbatim, List.forall_mem_append, NamedExpr.allVerbatim_eq, List.forall_mem_flatMap] at names
    obtain ⟨own, inBindings, inBody⟩ := names
    rw [Expr.code]
    refine (NamedExpr.yields_codes fun f mem => ih f mem (wf.1 f mem) (inBindings f mem)).bind fun fs hfs =>
      (ihBody wf.2 inBody).bind fun c hc => .pure ?_
    have bound : ∀ x ∈ fs, x.1.isSelfContained = true ∧ x.2.IsSelfContained := fun x mem =>
      ⟨own x.1 (hfs.1 ▸ List.mem_map_of_mem mem), hfs.2 x mem⟩
    exact isSelfContained_closure (Branch.IsSelfContained.lines ⟨bound, hc⟩)
  | caseOf scrutinee arms ihScrutinee ih =>
    intro wf names
    simp only [Expr.isWellFormed, Bool.and_eq_true, Arm.allWellFormed_iff] at wf
    rw [Expr.verbatim, List.forall_mem_append] at names
    have noMatch : s.noMatch.IsSelfContained := by
      rw [Style.noMatch, assemblyScript]
      exact Template.isSelfContained_fill (by decide) (by simpa using .text matchVar)
    rw [Expr.code]
    exact (ihScrutinee wf.1.1 names.1).bind fun c hc => (chain (.text matchVar) noMatch wf.2 names.2 ih).bind fun _ h =>
      .pure (isSelfContained_case assemblyScript matchVar hc h)
  | lambda params body ih =>
    intro wf names
    rw [Expr.isWellFormed] at wf
    rw [Expr.verbatim, List.forall_mem_append] at names
    rw [Expr.code]
    exact (ih wf names.2).bind fun c hc => .pure (isSelfContained_lambda names.1 hc)
  | tryCatch body handlers ihBody ih =>
    intro wf names
    simp only [Expr.isWellFormed, Bool.and_eq_true, Arm.allWellFormed_iff] at wf
    rw [Expr.verbatim, List.forall_mem_append] at names
    have rethrow : s.rethrow.IsSelfContained := .append (.append (.text rfl) (.text errorVar)) (.text rfl)
    rw [Expr.code]
    exact (ihBody wf.1.1 names.1).bind fun c hc => (chain (.text errorVar) rethrow wf.2 names.2 ih).bind fun _ h =>
      .pure (isSelfContained_try assemblyScript errorVar hc h)
  | doBlock statements result ih ihResult =>
    intro wf names
    rw [Expr.isWellFormed, Bool.and_eq_true, Statement.allWellFormed_iff] at wf
    rw [Expr.verbatim, List.forall_mem_append] at names
    rw [Expr.code]
    have before := Statement.yields_lines names.1 fun st mem e he => ih st mem e he ((wf.1 st mem).expr? he)
    refine before.bind fun ls hls => (ihResult wf.2 names.2).bind fun c hc => .pure ?_
    exact isSelfContained_closure (List.forall_mem_append.mpr ⟨hls, by simpa using isSelfContained_returnLine hc⟩)
  | map collection iterator transform ihCollection ihTransform =>
    intro wf names
    rw [Expr.isWellFormed, Bool.and_eq_true] at wf
    rw [Expr.verbatim, List.forall_mem_cons, List.forall_mem_append] at names
    rw [Expr.code]
    exact (ihCollection wf.1 names.2.1).bind fun c hc => (ihTransform wf.2 names.2.2).bind fun t ht =>
      .pure (isSelfContained_method hc names.1 ht _ rfl)
  | filter collection iterator predicate ihCollection ihPredicate =>
    intro wf names
    rw [Expr.isWellFormed, Bool.and_eq_true] at wf
    rw [Expr.verbatim, List.forall_mem_cons, List.forall_mem_append] at names
    rw [Expr.code]
    exact (ihCollection wf.1 names.2.1).bind fun c hc => (ihPredicate wf.2 names.2.2).bind fun t ht =>
      .pure (isSelfContained_method hc names.1 ht _ rfl)
  | fold collection initial accumulator iterator transform ihCollection ihInitial ihTransform =>
    intro wf names
    simp only [Expr.isWellFormed, Bool.and_eq_true] at wf
    simp only [Expr.verbatim, List.forall_mem_cons, List.forall_mem_append] at names
    obtain ⟨inAccumulator, inIterator, inCollection, inInitial, inTransform⟩ := names
    rw [Expr.code]
    refine (ihCollection wf.1.1 inCollection).bind fun c hc => (ihTransform wf.2 inTransform).bind fun t ht =>
      (ihInitial wf.1.2 inInitial).bind fun i hi => .pure ?_
    exact Code.isSelfContained_of_template [0, ".", "reduce", "((", 1, ", ", 2, ") => ", 3, ", ", 4, ")"]
      [c, .text accumulator, .text iterator, t, i] (by simp [Template.fillPiece, methodHead]) (by decide)
      (by simpa using ⟨hc, .text inAccumulator, .text inIterator, ht, hi⟩)
  | annotate e type ih =>
    intro wf names
    rw [Expr.isWellFormed] at wf
    rw [Expr.verbatim, List.forall_mem_cons] at names
    rw [Expr.code]
    refine (ih wf names.2).bind fun c hc => .pure ?_
    exact Code.isSelfContained_of_template ["(", 0, " as ", 1, ")"] [c, .text type] (by simp [Template.fillPiece])
      (by decide) (by simpa using ⟨hc, .text names.1⟩)
  | foreign node =>
    intro wf
    simp [Expr.isWellFormed] at wf

theorem Decl.yields {s : Style} (assemblyScript : s.dialect = .assemblyScript)
    (matchVar : s.matchVar.isSelfContained = true) (errorVar : s.errorVar.isSelfContained = true) {d : Decl}
    (wellFormed : d.isWellFormed = true) (names : ∀ t ∈ d.verbatim, t.isSelfContained = true) :
    Yields Code.IsSelfContained (d.code s) := by
  cases d with
  | const name type value exported =>
    simp only [Decl.verbatim, List.cons_append, List.forall_mem_cons, List.forall_mem_append] at names
    obtain ⟨inName, inType, inValue⟩ := names
    refine (value.yields assemblyScript matchVar errorVar wellFormed inValue).bind fun c hc => .pure ?_
    exact .layout (List.forall_mem_singleton.mpr (isSelfContained_constDecl exported inName inType hc))
  | function name params returnType body exported =>
    simp only [Decl.verbatim, List.cons_append, List.forall_mem_cons, List.forall_mem_append] at names
    obtain ⟨inName, ⟨inParams, inType⟩, inBody⟩ := names
    refine (body.yields assemblyScript matchVar errorVar wellFormed inBody).bind fun c hc => .pure ?_
    exact .layout (by simpa using ⟨isSelfContained_functionDecl exported inName inType inParams hc, .lineEnd⟩)
  | foreign node => simp [Decl.isWellFormed] at wellFormed

/-- **Renderings are self-contained.** Take a well-formed expression or declaration. If the texts that are written as
they stand, the variables of closures and the indentation are self-contained, as all texts without brackets and quotes
are, then so is every rendering: a scanner that passes over literals finds every bracket closed by its partner, no other
bracket closed, and every literal closed on its line. Keys, names of fields and the values of strings are arbitrary. -/
theorem renderings_are_self_contained (s : Style) (assemblyScript : s.dialect = .assemblyScript)
    (matchVar : s.matchVar.isSelfContained = true) (errorVar : s.errorVar.isSelfContained = true) (indentation : Text)
    (oneLine : newline ∉ indentation) (balanced : indentation.isSelfContained = true) :
    (∀ e : Expr, e.isWellFormed = true → (∀ t ∈ e.verbatim, t.isSelfContained = true) →
      ∀ text, e.render s indentation = .ok text → text.isSelfContained = true) ∧
    ∀ d : Decl, d.isWellFormed = true → (∀ t ∈ d.verbatim, t.isSelfContained = true) →
      ∀ text, d.render s indentation = .ok text → text.isSelfContained = true := by
  have written {r : Rendered Code} (h : Yields Code.IsSelfContained r) :
      Yields (fun text => text.isSelfContained = true) (do return (← r).toText indentation) :=
    h.bind fun c hc => .pure (Code.isSelfContained_toText oneLine balanced hc)
  constructor
  · intro e wellFormed names
    exact written (e.yields assemblyScript matchVar errorVar wellFormed names)
  · intro d wellFormed names
    exact written (d.yields assemblyScript matchVar errorVar wellFormed names)

/-- Brackets and quotes in a literal pattern, a key, a field name and a string, and balanced ones in a type. -/
def strayBrackets : Expr :=
  .caseOf (.field (.variable "v") "a]\"")
    [⟨.constructor "Some" [.literal (.string "\x7d)\"")], some (.record [⟨"(\\", .variable "x"⟩]), .string "[\n"⟩,
      ⟨.alias "n" .wildcard, none, .annotate (.variable "n") "Map<(i32)[]>"⟩]

theorem renderings_are_self_contained_strayBrackets : newline ∉ Builder.twoSpaces ∧
    Builder.twoSpaces.isSelfContained = true ∧ strayBrackets.isWellFormed = true ∧
    (∀ t ∈ strayBrackets.verbatim, t.isSelfContained = true) ∧
    ∃ text, strayBrackets.render {} Builder.twoSpaces = .ok text ∧ text.isSelfContained = true := by
  have oneLine : newline ∉ Builder.twoSpaces := by decide
  have balanced : Builder.twoSpaces.isSelfContained = true := by decide
  have names : ∀ t ∈ strayBrackets.verbatim, t.isSelfContained = true := by decide
  obtain ⟨text, rendered⟩ : ∃ text, strayBrackets.render {} Builder.twoSpaces = .ok text := ⟨_, rfl⟩
  refine ⟨oneLine, balanced, rfl, names, text, rendered, ?_⟩
  exact (renderings_are_self_contained {} rfl (by decide) (by decide) _ oneLine balanced).1 _ rfl names text rendered

end ExprScript
