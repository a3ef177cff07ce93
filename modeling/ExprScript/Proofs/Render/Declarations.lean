import ExprScript.Proofs.Layout.Code
import ExprScript.Proofs.Layout.InPlace
import ExprScript.Proofs.Outcome
import ExprScript.Render.Module

/-!
# Modules, declaration by declaration

The text of a module consists of the texts that its declarations have on their own, with an empty line between
neighbours, and a module fails as its first declaration does that fails (`modules_render_by_declaration`).

- `Decl.getLast?_render`: the text of a declaration ends with a line end;
- `Module.render_eq`: the text of a module in terms of those of its declarations;
- `Module.text_run_ops`, `Module.render_eq_run`: it is also what one builder makes that goes through the module
  (`Module.ops`). Declarations stand at the outermost level, where a builder leaves what is written as it is.
-/

namespace ExprScript

variable {s : Style} {indentation : Text}

/-! ## One declaration -/

theorem Builder.getLast?_newLine (b : Builder) : b.newLine.text.getLast? = some newline := by
  simp [Builder.newLine]

/-- The text of a declaration ends with a line end. -/
theorem Decl.getLast?_render {d : Decl} {t : Text} (h : d.render s indentation = .ok t) :
    t.getLast? = some newline := by
  obtain ⟨c, code, made⟩ := Outcome.bind_eq_ok_iff.mp h
  obtain rfl := Except.ok.inj made
  cases d with
  | const name type value exported =>
    obtain ⟨v, -, made⟩ := Outcome.bind_eq_ok_iff.mp code
    obtain rfl := Except.ok.inj made
    simp only [Code.toText, Code.ops, Code.op, Builder.run, Builder.step]
    exact Builder.getLast?_newLine _
  | function name params returnType body exported =>
    obtain ⟨v, -, made⟩ := Outcome.bind_eq_ok_iff.mp code
    obtain rfl := Except.ok.inj made
    simp only [Code.toText, Code.ops, Code.op, Builder.run, Builder.step]
    exact Builder.getLast?_newLine _
  | foreign node => simp [Decl.code] at code

/-- The texts of declarations are those of their code. -/
theorem Decl.mapM_render (ds : List Decl) :
    ds.mapM (Decl.render s indentation) = (List.map (Code.toText indentation)) <$> ds.mapM (Decl.code s) := by
  induction ds with
  | nil => rfl
  | cons d rest ih =>
    rw [List.mapM_cons, List.mapM_cons, ih, Decl.render]
    cases d.code s with
    | error e => rfl
    | ok c => cases rest.mapM (Decl.code s) <;> rfl

/-! ## All declarations -/

namespace Module

/-- **The text of a module** is made of the texts of its declarations. -/
theorem render_eq (o : Options) (m : Module) : m.render o =
    (fun texts => (o.header.map headerText).getD [] ++ Text.join [newline] texts) <$>
      m.decls.mapM (Decl.render o.toStyle o.indentation) := by
  rw [Module.render, Module.code, Decl.mapM_render]
  cases m.decls.mapM (Decl.code o.toStyle) with
  | error e => rfl
  | ok codes => cases o.header <;> simp

section NoHeader

variable {o : Options} (noHeader : o.header = none)

include noHeader

theorem render_eq_ok_iff {ds : List Decl} {t : Text} : Module.render o ⟨ds⟩ = .ok t ↔
    ∃ texts, ds.mapM (Decl.render o.toStyle o.indentation) = .ok texts ∧ Text.join [newline] texts = t := by
  rw [render_eq, Outcome.fmap_eq_ok_iff, noHeader]
  rfl

/-- A module can be rendered exactly if each of its declarations can. -/
theorem renders_iff {ds : List Decl} : (∃ t, Module.render o ⟨ds⟩ = .ok t) ↔
    ∀ d ∈ ds, ∃ t, d.render o.toStyle o.indentation = .ok t := by
  simp only [render_eq_ok_iff noHeader]
  constructor
  · rintro ⟨_, texts, all, -⟩ d mem
    have each := (Outcome.mapM_eq_ok_iff.mp all).flip
    obtain ⟨t, -, rendered⟩ := Outcome.exists_of_forall₂ each mem
    exact ⟨t, rendered⟩
  · intro each
    obtain ⟨texts, all⟩ := Outcome.exists_mapM_eq_ok each
    exact ⟨_, texts, all, rfl⟩

theorem render_singleton (d : Decl) : Module.render o ⟨[d]⟩ = d.render o.toStyle o.indentation := by
  rw [render_eq, noHeader, List.mapM_cons, List.mapM_nil]
  cases d.render o.toStyle o.indentation with
  | error e => rfl
  | ok t => simp

theorem render_nil : Module.render o ⟨[]⟩ = .ok [] := by
  rw [render_eq, noHeader]
  rfl

/-- Two lists of declarations have an empty line between their texts. -/
theorem render_append {ds₁ ds₂ : List Decl} {t₁ t₂ : Text} (h₁ : Module.render o ⟨ds₁⟩ = .ok t₁)
    (h₂ : Module.render o ⟨ds₂⟩ = .ok t₂) (some₁ : ds₁ ≠ []) (some₂ : ds₂ ≠ []) :
    Module.render o ⟨ds₁ ++ ds₂⟩ = .ok (t₁ ++ newline :: t₂) := by
  have texts_ne_nil {ds : List Decl} {texts : List Text} (nonempty : ds ≠ [])
      (all : ds.mapM (Decl.render o.toStyle o.indentation) = .ok texts) : texts ≠ [] := by
    rintro rfl
    exact nonempty (List.forall₂_nil_right_iff.mp (Outcome.mapM_eq_ok_iff.mp all))
  obtain ⟨texts₁, all₁, rfl⟩ := (render_eq_ok_iff noHeader).mp h₁
  obtain ⟨texts₂, all₂, rfl⟩ := (render_eq_ok_iff noHeader).mp h₂
  refine (render_eq_ok_iff noHeader).mpr ⟨texts₁ ++ texts₂, ?_, ?_⟩
  · rw [List.mapM_append, all₁, all₂]
    rfl
  · rw [Text.join_append _ (texts_ne_nil some₁ all₁) (texts_ne_nil some₂ all₂), List.append_assoc,
      List.singleton_append]

end NoHeader

/-- A module fails exactly as its first declaration does that fails. -/
theorem render_eq_error_iff {o : Options} {ds : List Decl} {e : RenderError} : Module.render o ⟨ds⟩ = .error e ↔
    ∃ front d back, ds = front ++ d :: back ∧ (∀ d' ∈ front, ∃ t, d'.render o.toStyle o.indentation = .ok t) ∧
      d.render o.toStyle o.indentation = .error e := by
  rw [render_eq, ← Outcome.mapM_eq_error_iff]
  cases ds.mapM (Decl.render o.toStyle o.indentation) <;> simp [Functor.map, Except.map]

/-! ## One builder for a module -/

/-- What a builder does for a header: it writes comment lines, and an empty line after them. -/
def headerOps (header : Text) : List Builder.Op :=
  (Text.splitOn newline header).map (fun line => .writeLine (if line.isEmpty then "//" else "// " ++ line)) ++
    [.newline]

/-- What a builder does for declarations with these texts: it writes them, and an empty line before each but the
first. -/
def declOps : List Text → List Builder.Op
  | [] => []
  | text :: rest => .write text :: rest.flatMap fun text => [.newline, .write text]

/-- What a builder does for a module with a header, if there is one, and declarations with these texts. -/
def ops (header : Option Text) (texts : List Text) : List Builder.Op :=
  (header.map headerOps).getD [] ++ declOps texts

theorem plain_headerOps (header : Text) : ∀ op ∈ headerOps header, op.text?.isSome = true := by
  refine List.forall_mem_append.mpr ⟨fun op mem => ?_, by simp [Builder.Op.text?]⟩
  obtain ⟨line, -, rfl⟩ := List.mem_map.mp mem
  rfl

theorem plain_declOps (texts : List Text) : ∀ op ∈ declOps texts, op.text?.isSome = true := by
  cases texts with
  | nil => simp [declOps]
  | cons text rest =>
    refine List.forall_mem_cons.mpr ⟨rfl, fun op mem => ?_⟩
    obtain ⟨t, -, mem⟩ := List.mem_flatMap.mp mem
    rcases List.mem_pair.mp mem with rfl | rfl <;> rfl

theorem texts_headerOps (header : Text) :
    (headerOps header).flatMap (fun op => op.text?.getD []) = headerText header := by
  have comment (line : Text) :
      (if line = [] then ("//" : Text) else "// " ++ line) ++ [newline] = commentLine line := by
    cases line <;> rfl
  simp [headerOps, headerText, List.flatMap_map, Builder.Op.text?, comment]

theorem texts_declOps (texts : List Text) :
    (declOps texts).flatMap (fun op => op.text?.getD []) = Text.join [newline] texts := by
  cases texts with
  | nil => rfl
  | cons text rest =>
    induction rest generalizing text with
    | nil => simp [declOps, Builder.Op.text?]
    | cons next rest ih =>
      have joined := ih next
      rw [Text.join_cons (List.cons_ne_nil _ _), ← joined]
      simp [declOps, Builder.Op.text?]

/-- One builder makes the text of a module. -/
theorem text_run_ops (header : Option Text) (texts : List Text) (indentation : Text) :
    ((Builder.empty indentation).run (ops header texts)).text =
      (header.map headerText).getD [] ++ Text.join [newline] texts := by
  have plain : ∀ op ∈ ops header texts, op.text?.isSome = true := by
    refine List.forall_mem_append.mpr ⟨?_, plain_declOps texts⟩
    cases header with
    | none => simp
    | some header => exact plain_headerOps header
  have outermost : (Builder.empty indentation).level = 0 := rfl
  rw [(Builder.run_outermost plain outermost).2, ops, List.flatMap_append, texts_declOps]
  cases header with
  | none => rfl
  | some header => exact congrArg (· ++ _) (texts_headerOps header)

/-- Rendering a module is to render its declarations and then to go through it with one builder. -/
theorem render_eq_run (o : Options) (m : Module) : m.render o =
    (fun texts => ((Builder.empty o.indentation).run (ops o.header texts)).text) <$>
      m.decls.mapM (Decl.render o.toStyle o.indentation) := by
  simp only [text_run_ops]
  exact render_eq o m

end Module

/-- **Modules are rendered declaration by declaration.** Without a header, two lists of declarations can be rendered
together exactly if each of them can. The text is then that of the first, an empty line and that of the second, or only
one of the two if the other list is empty. It consists of the texts that the declarations have on their own, each of
which ends with a line end, and a single builder that goes through the declarations makes it. If it cannot be rendered,
the error is that of the first declaration that fails on its own. Declarations alone are rendered like a module. -/
theorem modules_render_by_declaration {o : Options} (noHeader : o.header = none) (ds₁ ds₂ : List Decl) :
    ((∃ t, Module.render o ⟨ds₁ ++ ds₂⟩ = .ok t) ↔
      (∃ t, Module.render o ⟨ds₁⟩ = .ok t) ∧ ∃ t, Module.render o ⟨ds₂⟩ = .ok t) ∧
    (∀ t₁ t₂, Module.render o ⟨ds₁⟩ = .ok t₁ → Module.render o ⟨ds₂⟩ = .ok t₂ →
      (ds₁ ≠ [] → ds₂ ≠ [] → Module.render o ⟨ds₁ ++ ds₂⟩ = .ok (t₁ ++ newline :: t₂)) ∧
      (ds₁ = [] → t₁ = [] ∧ Module.render o ⟨ds₁ ++ ds₂⟩ = .ok t₂) ∧
      (ds₂ = [] → t₂ = [] ∧ Module.render o ⟨ds₁ ++ ds₂⟩ = .ok t₁)) ∧
    (∀ t, Module.render o ⟨ds₁ ++ ds₂⟩ = .ok t → ∃ texts,
      List.Forall₂ (fun d text => d.render o.toStyle o.indentation = .ok text ∧ Module.render o ⟨[d]⟩ = .ok text ∧
        text.getLast? = some newline) (ds₁ ++ ds₂) texts ∧
      t = Text.join [newline] texts ∧ t = ((Builder.empty o.indentation).run (Module.ops none texts)).text) ∧
    (∀ e, Module.render o ⟨ds₁ ++ ds₂⟩ = .error e ↔
      ∃ front d back, ds₁ ++ ds₂ = front ++ d :: back ∧ (∀ d' ∈ front, ∃ t, Module.render o ⟨[d']⟩ = .ok t) ∧
        Module.render o ⟨[d]⟩ = .error e) ∧
    ∀ ds, (ModuleSource.bare ds).render o = (ModuleSource.whole ⟨ds⟩).render o := by
  refine ⟨?succeeds, fun t₁ t₂ h₁ h₂ => ⟨?both, ?none₁, ?none₂⟩, fun t h => ?texts, fun e => ?fails, fun ds => rfl⟩
  case succeeds =>
    rw [Module.renders_iff noHeader, Module.renders_iff noHeader, Module.renders_iff noHeader, List.forall_mem_append]
  case both => exact Module.render_append noHeader h₁ h₂
  case none₁ =>
    rintro rfl
    rw [Module.render_nil noHeader] at h₁
    exact ⟨(Except.ok.inj h₁).symm, h₂⟩
  case none₂ =>
    rintro rfl
    rw [Module.render_nil noHeader] at h₂
    exact ⟨(Except.ok.inj h₂).symm, by rwa [List.append_nil]⟩
  case texts =>
    obtain ⟨texts, all, rfl⟩ := (Module.render_eq_ok_iff noHeader).mp h
    refine ⟨texts, (Outcome.mapM_eq_ok_iff.mp all).imp fun d text own => ?_, rfl, ?_⟩
    · exact ⟨own, (Module.render_singleton noHeader d).trans own, Decl.getLast?_render own⟩
    · exact (Module.text_run_ops none texts o.indentation).symm
  case fails =>
    simp only [Module.render_singleton noHeader]
    exact Module.render_eq_error_iff

/-- A constant that is not exported, with a type. -/
def flagConst : Decl := .const "flag" (some "bool") (.bool true) false

/-- A function whose value spans several lines. -/
def choiceFunction : Decl :=
  .function "choose" [⟨"a", none⟩] none (.ifThenElse (.variable "a") (.variable "flag") (.bool false)) true

theorem modules_render_flagConst_choiceFunction : ({} : Options).header = none ∧
    (∃ t₁ t₂, Module.render {} ⟨[flagConst]⟩ = .ok t₁ ∧ Module.render {} ⟨[choiceFunction]⟩ = .ok t₂ ∧
      Module.render {} ⟨[flagConst] ++ [choiceFunction]⟩ = .ok (t₁ ++ newline :: t₂)) ∧
    (∃ texts, Module.render {} ⟨[flagConst] ++ [choiceFunction]⟩ =
      .ok ((Builder.empty Builder.twoSpaces).run (Module.ops none texts)).text) ∧
    (ModuleSource.bare [flagConst]).render {} = .ok ("const flag: bool = true;\n" : Text) := by
  have first : Module.render {} ⟨[flagConst]⟩ = .ok ("const flag: bool = true;\n" : Text) := rfl
  obtain ⟨t₂, second⟩ : ∃ t, Module.render {} ⟨[choiceFunction]⟩ = .ok t := ⟨_, rfl⟩
  obtain ⟨-, joined, texts, -, bare⟩ := modules_render_by_declaration (o := {}) rfl [flagConst] [choiceFunction]
  have both := (joined _ _ first second).1 (List.cons_ne_nil _ _) (List.cons_ne_nil _ _)
  obtain ⟨parts, -, -, built⟩ := texts _ both
  exact ⟨rfl, ⟨_, _, first, second, both⟩, ⟨parts, built ▸ both⟩, (bare _).trans first⟩

end ExprScript
