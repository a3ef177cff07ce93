import ExprScript.Proofs.Pattern.Spelling
import ExprScript.Proofs.Tree.Choices
import ExprScript.Proofs.Tree.RoundTrip
import ExprScript.Render.Module
import ExprScript.Report.Basic

/-!
# Why a decoded tree cannot be rendered

There is one reason only: an or-pattern whose alternatives bind variables, in a place that can be reached. The error is
about an innermost one. `decoded_fails_only_for_binding` is the statement for decoded expressions and modules.

`Explains choices r` is the invariant: a rendering `r` of a part with the or-patterns `choices` has a result exactly if
none of them binds, and an error is about an innermost one that does. It passes through everything that rendering does
with its parts (`Explains.bind`, `Explains.mapM`), so the induction on trees only has to name the parts.
-/

namespace ExprScript

/-- The error about alternatives that bind variables. -/
def RenderError.ofAlternatives (alternatives : List Pattern) : RenderError :=
  .bindingAlternatives (Pattern.allVars alternatives).eraseDups (inText (Pattern.or alternatives).source?)

/-- There is a result only if no choice binds, and an error only about an innermost choice that does. -/
def Explains {α : Type} (choices : List (List Pattern)) : Rendered α → Prop
  | .ok _ => ∀ alternatives ∈ choices, Pattern.allVars alternatives = []
  | .error e => ∃ alternatives ∈ choices, IsInnermost alternatives ∧ e = .ofAlternatives alternatives

namespace Explains

variable {α β : Type} {cs ds : List (List Pattern)}

theorem pure (a : α) : Explains [] (.ok a) := by simp [Explains]

/-- What is rendered next adds its choices. -/
theorem bind {x : Rendered α} {f : α → Rendered β} (first : Explains cs x)
    (rest : ∀ a, x = .ok a → Explains ds (f a)) : Explains (cs ++ ds) (x >>= f) := by
  cases x with
  | error e =>
    obtain ⟨alternatives, mem, about⟩ := first
    exact ⟨alternatives, List.mem_append_left _ mem, about⟩
  | ok a =>
    have rest := rest a rfl
    show Explains (cs ++ ds) (f a)
    cases h : f a with
    | ok b =>
      rw [h] at rest
      exact fun alternatives mem => (List.mem_append.mp mem).elim (first _) (rest _)
    | error e =>
      rw [h] at rest
      obtain ⟨alternatives, mem, about⟩ := rest
      exact ⟨alternatives, List.mem_append_right _ mem, about⟩

/-- What is made of a result does not matter. -/
theorem map {x : Rendered α} (h : Explains cs x) (f : α → β) : Explains cs (x >>= fun a => .ok (f a)) := by
  have made := h.bind fun a _ => Explains.pure (f a)
  rwa [List.append_nil] at made

/-- Parts that are rendered one after the other. -/
theorem mapM {γ : Type} {xs : List γ} {f : γ → Rendered α} {choices : γ → List (List Pattern)}
    (h : ∀ x ∈ xs, Explains (choices x) (f x)) : Explains (xs.flatMap choices) (xs.mapM f) := by
  induction xs with
  | nil => exact Explains.pure []
  | cons x rest ih =>
    obtain ⟨first, others⟩ := List.forall_mem_cons.mp h
    rw [List.flatMap_cons, List.mapM_cons]
    exact first.bind fun y _ => (ih others).map fun ys => y :: ys

end Explains

/-! ## Patterns -/

section Patterns

variable {s : Style}

/-- Parts that are numbered and then compiled. -/
theorem explains_numbered (ref : Nat → Ref) {ps : List Pattern}
    (h : ∀ p ∈ ps, ∀ place, Explains p.choices (Pattern.matcher s place p)) :
    Explains (Pattern.allChoices ps) (ps.zipIdx.mapM fun x => x.1.matcher s (ref x.2)) := by
  have parts : Explains (ps.zipIdx.flatMap fun x => x.1.choices) (ps.zipIdx.mapM fun x => x.1.matcher s (ref x.2)) :=
    .mapM fun x mem => h x.1 (List.fst_mem_of_mem_zipIdx mem) (ref x.2)
  rwa [← List.flatMap_map, List.zipIdx_map_fst, ← Pattern.allChoices_eq] at parts

/-- A choice fails if its alternatives bind, after they have been compiled. -/
theorem explains_choice {ps : List Pattern} {ms : Rendered (List Matcher)}
    (h : Explains (Pattern.allChoices ps) ms) : Explains (Pattern.or ps).choices (ms >>= Matcher.choice ps) := by
  rw [Pattern.choices]
  cases ms with
  | error e =>
    obtain ⟨alternatives, mem, about⟩ := h
    exact ⟨alternatives, List.mem_cons_of_mem _ mem, about⟩
  | ok ms =>
    show Explains _ (Matcher.choice ps ms)
    unfold Matcher.choice
    split
    · rename_i none
      exact List.forall_mem_cons.mpr ⟨none, h⟩
    · rename_i binds
      exact ⟨ps, List.mem_cons_self, ⟨binds, h⟩, rfl⟩

/-- The elements of a list pattern come before its tail. -/
theorem explains_list {elements : List Pattern} {tail : Option Pattern}
    (parts : ∀ p ∈ elements, ∀ place, Explains p.choices (Pattern.matcher s place p))
    (rest : ∀ t ∈ tail, ∀ place, Explains t.choices (Pattern.matcher s place t)) (place : Ref) :
    Explains (Pattern.list elements tail).choices ((Pattern.list elements tail).matcher s place) := by
  have front : Explains (Pattern.allChoices elements) (Pattern.elementMatchers s place 0 elements) := by
    rw [Pattern.elementMatchers_eq]
    exact explains_numbered _ parts
  cases tail with
  | none =>
    rw [Pattern.choices, Pattern.matcher]
    exact front.map _
  | some t =>
    rw [Pattern.choices]
    by_cases wildcard : t = .wildcard
    · subst wildcard
      rw [Pattern.matcher, Pattern.choices, List.append_nil]
      exact front.map _
    · rw [Pattern.matcher_openList s place elements wildcard]
      exact front.bind fun _ _ => (rest t rfl _).map _

/-- A well-formed pattern is compiled unless alternatives in it bind. -/
theorem Pattern.explains (s : Style) {p : Pattern} (wellFormed : p.isWellFormed = true) (place : Ref) :
    Explains p.choices (p.matcher s place) := by
  induction p using Pattern.inductionOn generalizing place with
  | wildcard =>
    rw [Pattern.matcher, Pattern.choices]
    exact .pure _
  | var name =>
    rw [Pattern.matcher, Pattern.choices]
    exact .pure _
  | literal e =>
    rw [Pattern.isWellFormed, Bool.and_eq_true] at wellFormed
    obtain ⟨_, code, _, written, _⟩ := Target.literal_code wellFormed.1 s
    rw [Pattern.matcher, Pattern.choices, written]
    exact .pure _
  | construct name args ih =>
    rw [Pattern.isWellFormed, Pattern.allWellFormed_iff] at wellFormed
    rw [Pattern.matcher, Pattern.choices, Pattern.argumentMatchers_eq]
    exact (explains_numbered (fun i => .argument place i args.length) fun p mem => ih p mem (wellFormed p mem)).map _
  | record fields ih =>
    rw [Pattern.isWellFormed, NamedPattern.allWellFormed_iff] at wellFormed
    rw [Pattern.matcher, Pattern.choices, NamedPattern.matchers_eq, NamedPattern.allChoices_eq]
    exact (Explains.mapM fun f mem => ih f mem (wellFormed f mem) _).map _
  | list elements tail ih ihTail =>
    obtain ⟨wellFormed, wellFormedTail⟩ := Pattern.isWellFormed_list_iff.mp wellFormed
    exact explains_list (fun p mem => ih p mem (wellFormed p mem))
      (fun t mem => ihTail t mem (wellFormedTail t mem)) place
  | named name p ih =>
    rw [Pattern.isWellFormed] at wellFormed
    rw [Pattern.matcher, Pattern.choices]
    exact (ih wellFormed place).map _
  | choice ps ih =>
    rw [Pattern.isWellFormed, Bool.and_eq_true, Pattern.allWellFormed_iff] at wellFormed
    rw [Pattern.matcher_or s place (by simpa using wellFormed.1)]
    apply explains_choice
    rw [Pattern.allChoices_eq]
    exact .mapM fun p mem => ih p mem (wellFormed.2 p mem) place
  | foreign node => simp [Pattern.isWellFormed] at wellFormed

end Patterns

/-! ## Lists of parts -/

section Lists

variable {s : Style}

theorem Expr.explains_codes {es : List Expr} (h : ∀ e ∈ es, Explains e.choices (e.code s)) :
    Explains (Expr.allChoices es) (Expr.codes s es) := by
  induction es with
  | nil =>
    rw [Expr.allChoices, Expr.codes]
    exact .pure _
  | cons e rest ih =>
    obtain ⟨first, others⟩ := List.forall_mem_cons.mp h
    rw [Expr.allChoices, Expr.codes]
    exact first.bind fun _ _ => (ih others).map _

theorem NamedExpr.explains_codes {fields : List NamedExpr}
    (h : ∀ f ∈ fields, Explains f.value.choices (f.value.code s)) :
    Explains (NamedExpr.allChoices fields) (NamedExpr.codes s fields) := by
  induction fields with
  | nil =>
    rw [NamedExpr.allChoices, NamedExpr.codes]
    exact .pure _
  | cons f rest ih =>
    obtain ⟨first, others⟩ := List.forall_mem_cons.mp h
    obtain ⟨name, value⟩ := f
    rw [NamedExpr.allChoices, NamedExpr.codes]
    exact first.bind fun _ _ => (ih others).map _

theorem Statement.explains_lines {sts : List Statement} (wellFormed : ∀ st ∈ sts, st.IsWellFormed)
    (h : ∀ st ∈ sts, ∀ e ∈ st.expr?, Explains e.choices (e.code s)) :
    Explains (Statement.allChoices sts) (Statement.lines s sts) := by
  induction sts with
  | nil =>
    rw [Statement.allChoices, Statement.lines]
    exact .pure _
  | cons st rest ih =>
    obtain ⟨first, others⟩ := List.forall_mem_cons.mp h
    obtain ⟨wellFormed, wellFormedRest⟩ := List.forall_mem_cons.mp wellFormed
    cases st with
    | bind name value =>
      rw [Statement.allChoices, Statement.lines]
      exact (first value rfl).bind fun _ _ => (ih wellFormedRest others).map _
    | effect e =>
      rw [Statement.allChoices, Statement.lines]
      exact (first e rfl).bind fun _ _ => (ih wellFormedRest others).map _
    | foreign node => exact absurd wellFormed id

/-- The pattern of an arm comes first, then its guard and its body. -/
theorem Arm.explains_rendered {a : Arm} (value : Code) (pattern : a.pattern.isWellFormed = true)
    (guard : ∀ g ∈ a.guard, Explains g.choices (g.code s)) (body : Explains a.body.choices (a.body.code s)) :
    Explains a.choices (a.rendered s value) := by
  have guards : Explains (a.guard.elim [] Expr.choices) (Arm.guardCode s a.guard) := by
    cases h : a.guard with
    | none => exact .pure _
    | some g => exact (guard g h).map some
  exact (Pattern.explains s pattern .root).bind fun _ _ => guards.bind fun _ _ => body.map _

/-- Only the arms that can be reached matter. -/
theorem Arm.explains_chain (assemblyScript : s.dialect = .assemblyScript) {arms : List Arm}
    (wellFormed : ∀ a ∈ arms, a.IsWellFormed)
    (h : ∀ a ∈ arms, (∀ g ∈ a.guard, g.isWellFormed = true → Explains g.choices (g.code s)) ∧
      (a.body.isWellFormed = true → Explains a.body.choices (a.body.code s)))
    (value fallback : Code) : Explains (Arm.allChoices arms) (Arm.chain s value fallback arms) := by
  rw [Arm.allChoices_eq, Arm.chain_eq assemblyScript]
  refine Explains.map (Explains.mapM fun a mem => ?_) _
  have mem := Arm.mem_of_mem_reachable mem
  obtain ⟨pattern, guard, body⟩ := wellFormed a mem
  exact Arm.explains_rendered value pattern (fun g hg => (h a mem).1 g hg (guard g hg)) ((h a mem).2 body)

end Lists

/-! ## Expressions and modules -/

/-- A well-formed expression is rendered unless alternatives in it bind. -/
theorem Expr.explains {s : Style} (assemblyScript : s.dialect = .assemblyScript) (e : Expr) :
    e.isWellFormed = true → Explains e.choices (e.code s) := by
  induction e using Expr.inductionOn with
  | int | string | bool | var =>
    intro _
    rw [Expr.choices, Expr.code]
    exact .pure _
  | qualified space name =>
    intro _
    rw [Expr.choices, Expr.code]
    split <;> exact .pure _
  | list elements ih =>
    intro wf
    rw [Expr.isWellFormed, Expr.allWellFormed_iff] at wf
    rw [Expr.choices, Expr.code]
    exact (Expr.explains_codes fun e mem => ih e mem (wf e mem)).map _
  | record fields ih =>
    intro wf
    rw [Expr.isWellFormed, NamedExpr.allWellFormed_iff] at wf
    rw [Expr.choices, Expr.code]
    exact (NamedExpr.explains_codes fun f mem => ih f mem (wf f mem)).map _
  | binary op left right ihLeft ihRight =>
    intro wf
    simp only [Expr.isWellFormed, Bool.and_eq_true, Option.isSome_iff_exists] at wf
    obtain ⟨⟨⟨known, name⟩, wfLeft⟩, wfRight⟩ := wf
    rw [Expr.choices, Expr.code, name]
    exact (ihLeft wfLeft).bind fun _ _ => (ihRight wfRight).map _
  | unary op operand ih =>
    intro wf
    simp only [Expr.isWellFormed, Bool.and_eq_true, Option.isSome_iff_exists] at wf
    obtain ⟨⟨known, name⟩, wf⟩ := wf
    rw [Expr.choices, Expr.code, name]
    exact (ih wf).map _
  | call fn args ihFn ih =>
    intro wf
    rw [Expr.isWellFormed, Bool.and_eq_true, Expr.allWellFormed_iff] at wf
    rw [Expr.choices, Expr.code]
    exact (ihFn wf.1).bind fun _ _ => (Expr.explains_codes fun e mem => ih e mem (wf.2 e mem)).map _
  | construct name args ih =>
    intro wf
    rw [Expr.isWellFormed, Expr.allWellFormed_iff] at wf
    rw [Expr.choices, Expr.code]
    exact (Expr.explains_codes fun e mem => ih e mem (wf e mem)).map _
  | recordCreate type fields ih =>
    intro wf
    rw [Expr.isWellFormed, NamedExpr.allWellFormed_iff] at wf
    rw [Expr.choices, Expr.code]
    exact (NamedExpr.explains_codes fun f mem => ih f mem (wf f mem)).map _
  | recordUpdate target updates ihTarget ih =>
    intro wf
    rw [Expr.isWellFormed, Bool.and_eq_true, NamedExpr.allWellFormed_iff] at wf
    rw [Expr.choices, Expr.code]
    exact (ihTarget wf.1).bind fun _ _ => (NamedExpr.explains_codes fun f mem => ih f mem (wf.2 f mem)).map _
  | field target name ih =>
    intro wf
    rw [Expr.isWellFormed] at wf
    rw [Expr.choices, Expr.code]
    exact (ih wf).map _
  | index target i ihTarget ih =>
    intro wf
    rw [Expr.isWellFormed, Bool.and_eq_true] at wf
    rw [Expr.choices, Expr.code]
    exact (ihTarget wf.1).bind fun _ _ => (ih wf.2).map _
  | ifThenElse condition yes no ihCondition ihYes ihNo =>
    intro wf
    simp only [Expr.isWellFormed, Bool.and_eq_true] at wf
    rw [Expr.choices, Expr.code]
    exact (ihCondition wf.1.1).bind fun _ _ => (ihYes wf.1.2).bind fun _ _ => (ihNo wf.2).map _
  | letIn bindings body ih ihBody =>
    intro wf
    rw [Expr.isWellFormed, Bool.and_eq_true, NamedExpr.allWellFormed_iff] at wf
    rw [Expr.choices, Expr.code]
    exact (NamedExpr.explains_codes fun f mem => ih f mem (wf.1 f mem)).bind fun _ _ => (ihBody wf.2).map _
  | caseOf scrutinee arms ihScrutinee ih =>
    intro wf
    simp only [Expr.isWellFormed, Bool.and_eq_true, Arm.allWellFormed_iff] at wf
    rw [Expr.choices, Expr.code]
    exact (ihScrutinee wf.1.1).bind fun _ _ => (Arm.explains_chain assemblyScript wf.2 ih _ _).map _
  | lambda params body ih =>
    intro wf
    rw [Expr.isWellFormed] at wf
    rw [Expr.choices, Expr.code]
    exact (ih wf).map _
  | tryCatch body handlers ihBody ih =>
    intro wf
    simp only [Expr.isWellFormed, Bool.and_eq_true, Arm.allWellFormed_iff] at wf
    rw [Expr.choices, Expr.code]
    exact (ihBody wf.1.1).bind fun _ _ => (Arm.explains_chain assemblyScript wf.2 ih _ _).map _
  | doBlock statements result ih ihResult =>
    intro wf
    rw [Expr.isWellFormed, Bool.and_eq_true, Statement.allWellFormed_iff] at wf
    rw [Expr.choices, Expr.code]
    refine (Statement.explains_lines wf.1 fun st mem e he => ?_).bind fun _ _ => (ihResult wf.2).map _
    exact ih st mem e he ((wf.1 st mem).expr? he)
  | map collection iterator transform ihCollection ihTransform =>
    intro wf
    rw [Expr.isWellFormed, Bool.and_eq_true] at wf
    rw [Expr.choices, Expr.code]
    exact (ihCollection wf.1).bind fun _ _ => (ihTransform wf.2).map _
  | filter collection iterator predicate ihCollection ihPredicate =>
    intro wf
    rw [Expr.isWellFormed, Bool.and_eq_true] at wf
    rw [Expr.choices, Expr.code]
    exact (ihCollection wf.1).bind fun _ _ => (ihPredicate wf.2).map _
  | fold collection initial accumulator iterator transform ihCollection ihInitial ihTransform =>
    intro wf
    simp only [Expr.isWellFormed, Bool.and_eq_true] at wf
    rw [Expr.choices, Expr.code]
    exact (ihCollection wf.1.1).bind fun _ _ => (ihTransform wf.2).bind fun _ _ => (ihInitial wf.1.2).map _
  | annotate e type ih =>
    intro wf
    rw [Expr.isWellFormed] at wf
    rw [Expr.choices, Expr.code]
    exact (ih wf).map _
  | foreign node =>
    intro wf
    simp [Expr.isWellFormed] at wf

theorem Decl.explains {s : Style} (assemblyScript : s.dialect = .assemblyScript) {d : Decl}
    (wellFormed : d.isWellFormed = true) : Explains d.choices (d.code s) := by
  cases d with
  | const name type value exported => exact (value.explains assemblyScript wellFormed).map _
  | function name params returnType body exported => exact (body.explains assemblyScript wellFormed).map _
  | foreign node => simp [Decl.isWellFormed] at wellFormed

theorem Module.explains {s : Style} (assemblyScript : s.dialect = .assemblyScript) {m : Module}
    (wellFormed : m.isWellFormed = true) : Explains m.choices (m.code s) :=
  (Explains.mapM fun d mem => Decl.explains assemblyScript (Module.isWellFormed_iff.mp wellFormed d mem)).map _

/-! ## The one reason -/

/-- A rendering fails exactly if one of the choices binds variables. The error is then about an innermost such choice:
the report has no path, names the variables in the order of their first occurrence, and notes the or-pattern. -/
structure FailsOnlyForBinding {α : Type} (choices : List (List Pattern)) (r : Rendered α) : Prop where
  fails_iff : (∃ error, r = .error error) ↔ ∃ alternatives ∈ choices, Pattern.allVars alternatives ≠ []
  about (error : RenderError) : r = .error error → ∃ alternatives ∈ choices, IsInnermost alternatives ∧
    ∃ names, FirstOccurrences names (Pattern.allVars alternatives) ∧
      error = .bindingAlternatives names (inText (Pattern.or alternatives).source?) ∧
      ∀ root, (CompileError.render error).failure root = .report
        { message := "Or-pattern alternatives cannot bind variables: " ++ Text.join ", " names
          stage := .render
          path := none
          notes := ["in pattern " ++ inText (Pattern.or alternatives).source?] }

theorem Explains.failsOnlyForBinding {α : Type} {choices : List (List Pattern)} {r : Rendered α}
    (h : Explains choices r) : FailsOnlyForBinding choices r where
  fails_iff := by
    cases r with
    | ok a =>
      refine iff_of_false (by simp) ?_
      rintro ⟨alternatives, mem, binds⟩
      exact binds (h alternatives mem)
    | error e =>
      obtain ⟨alternatives, mem, innermost, _⟩ := h
      exact iff_of_true ⟨e, rfl⟩ ⟨alternatives, mem, innermost.1⟩
  about := by
    rintro error rfl
    obtain ⟨alternatives, mem, innermost, rfl⟩ := h
    exact ⟨alternatives, mem, innermost, _, firstOccurrences_eraseDups _, rfl, fun _ => rfl⟩

/-- **Decoded trees are rendered, or fail for one reason.** In AssemblyScript, rendering a decoded expression or module
fails exactly if an or-pattern that can be reached binds variables, and the error is about an innermost one. -/
theorem decoded_fails_only_for_binding (o : Options) (assemblyScript : o.dialect = .assemblyScript) :
    (∀ found e, Decode.expr found = .ok e → FailsOnlyForBinding e.choices (e.render o.toStyle o.indentation)) ∧
      ∀ found m, Decode.module found = .ok m → FailsOnlyForBinding m.choices (m.render o) := by
  constructor
  · intro found e decoded
    exact ((e.explains assemblyScript (Decode.expr_wellFormed decoded)).map _).failsOnlyForBinding
  · intro found m decoded
    exact ((Module.explains assemblyScript (Decode.module_wellFormed decoded)).map _).failsOnlyForBinding

/-- A choice that binds inside another one. -/
def nestedChoice : Expr :=
  .caseOf (.variable "v")
    [⟨.or [.constructor "Some" [.or [.alias "n" .wildcard, .list [.variable "m", .variable "n"] none]], .wildcard],
      none, .variable "n"⟩]

theorem decoded_fails_only_for_nestedChoice : Decode.expr (.value nestedChoice.encode) = .ok nestedChoice ∧
    FailsOnlyForBinding nestedChoice.choices (nestedChoice.render {} "  ") ∧
    nestedChoice.render {} "  " = .error (.bindingAlternatives ["n", "m"] "_ as n | [m, n]") := by
  have decoded : Decode.expr (.value nestedChoice.encode) = .ok nestedChoice := nestedChoice.decode_encode rfl
  exact ⟨decoded, (decoded_fails_only_for_binding { indentation := "  " } rfl).1 _ _ decoded, rfl⟩

end ExprScript
