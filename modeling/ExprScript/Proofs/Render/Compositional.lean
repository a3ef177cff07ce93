import ExprScript.Proofs.Render.Hole

/-!
# Rendering is compositional

An expression is rendered in the same way wherever it stands, and its text stands once in the text of the whole.
`rendering_is_compositional` is the statement for an expression with a hole at any depth.

- `Frame.settles`: in every frame that is reached, the code of the hole is written once, in the middle of a line;
- `Frame.code_of_not_reached`: an arm after one that takes every value is not rendered at all;
- `Context.settles` and `Context.code_of_not_reached` say the same of holes at any depth, frame by frame.
-/

namespace ExprScript

open Layout

/-! ## Templates -/

namespace Template

/-- Whether the line goes on with text, and a hole does not occur. -/
def goesOn (i : Nat) : Template → Bool
  | .text t :: rest => t.startsInline && !rest.contains (.hole i)
  | _ => false

/-- Whether a hole occurs once, and the line goes on with text after it. -/
def closes (i : Nat) : Template → Bool
  | [] => false
  | .text _ :: rest => closes i rest
  | .hole j :: rest => if j = i then goesOn i rest else closes i rest

theorem closes_split {i : Nat} {t : Template} (h : t.closes i = true) :
    ∃ (front : Template) (next : Text) (back : Template), t = front ++ .hole i :: .text next :: back ∧
      next.startsInline = true ∧ .hole i ∉ front ∧ .hole i ∉ back := by
  induction t with
  | nil => simp [closes] at h
  | cons piece rest ih =>
    cases piece with
    | text s =>
      obtain ⟨front, next, back, rfl, inline, hf, hb⟩ := ih h
      exact ⟨.text s :: front, next, back, rfl, inline, by simpa using hf, hb⟩
    | hole j =>
      rw [closes] at h
      by_cases hj : j = i
      · rw [if_pos hj] at h
        unfold goesOn at h
        split at h
        · rename_i next back
          rw [Bool.and_eq_true] at h
          exact ⟨[], next, back, by rw [hj]; rfl, h.1, by simp, by simpa using h.2⟩
        · cases h
      · rw [if_neg hj] at h
        obtain ⟨front, next, back, rfl, inline, hf, hb⟩ := ih h
        exact ⟨.hole j :: front, next, back, rfl, inline, by simpa [Ne.symm hj] using hf, hb⟩

/-- A template writes an argument once if the hole for it occurs once. -/
theorem encloses_fill {i : Nat} {t : Template} (h : t.closes i = true) (args : List Code) (bound : i < args.length) :
    Encloses fun c => t.fill (args.set i c) := by
  obtain ⟨front, next, back, rfl, inline, hf, hb⟩ := closes_split h
  have other {pieces : Template} (h : .hole i ∉ pieces) (c : Code) :
      pieces.map (fillPiece (args.set i c)) = pieces.map (fillPiece args) := by
    refine List.map_congr_left fun piece mem => ?_
    cases piece with
    | text s => rfl
    | hole j =>
      have hj : i ≠ j := fun hj => h (hj ▸ mem)
      simp [fillPiece, List.getElem?_set_ne hj]
  have own (c : Code) : fillPiece (args.set i c) (.hole i) = c := by simp [fillPiece, bound]
  simp only [fill, List.map_append, List.map_cons, other hf, other hb, own]
  exact .concat inline _ _

end Template

theorem Dialect.closes_binary (op : BinaryOp) :
    (assemblyScriptBinary op).closes 0 = true ∧ (assemblyScriptBinary op).closes 1 = true := by
  cases op <;> decide

theorem Dialect.closes_unary (op : UnaryOp) : (assemblyScriptUnary op).closes 0 = true := by
  cases op <;> decide

/-! ## Records and methods -/

section Forms

variable {F : Code → Code}

theorem Embeds.entries (name : Text) (front back : List (Text × Code)) :
    Embeds fun c => recordCode.entries (front ++ (name, c) :: back) := by
  simp only [recordCode.entries, List.map_append, List.map_cons]
  exact (Embeds.hole.prepend _).join rfl _ _

theorem Encloses.record (name : Text) (front back : List (Text × Code)) :
    Encloses fun c => recordCode (front ++ (name, c) :: back) := by
  have nonempty (c : Code) : (front ++ (name, c) :: back).isEmpty = false := by simp
  simp only [recordCode, nonempty, Bool.false_eq_true, if_false]
  exact ((Embeds.entries name front back).prepend _).append rfl

theorem Encloses.updateTarget (updates : List (Text × Code)) : Encloses fun c => updateCode c updates := by
  unfold updateCode
  split
  · exact (Embeds.hole.prepend _).append rfl
  · exact (((Embeds.hole.prepend _).append rfl).append _).append _

theorem Encloses.updateField (target : Code) (name : Text) (front back : List (Text × Code)) :
    Encloses fun c => updateCode target (front ++ (name, c) :: back) := by
  have nonempty (c : Code) : (front ++ (name, c) :: back).isEmpty = false := by simp
  simp only [updateCode, nonempty, Bool.false_eq_true, if_false]
  exact ((Embeds.entries name front back).prepend _).append rfl

theorem Encloses.property (name : Text) : Encloses fun c => propertyCode c name := by
  unfold propertyCode
  split
  · exact (Embeds.hole.append rfl).append _
  · exact ((Embeds.hole.append rfl).append _).append _

theorem Encloses.methodHead (method params : Text) : Encloses fun c => methodHead c method params :=
  ((((Embeds.hole.append rfl).append _).append _).append _).append _

end Forms

/-! ## Frames -/

section Frames

variable {s : Style}

/-- **In every frame that is reached,** the code of the hole is written once, in the middle of a line. -/
theorem Frame.settles (assemblyScript : s.dialect = .assemblyScript) {f : Frame} {e₀ : Expr}
    (wellFormed : (f.fill e₀).isWellFormed = true) (reached : f.isReached = true) :
    Settles s Encloses fun e => (f.fill e).code s := by
  cases f with
  | listElement before after =>
    simp only [fill, Expr.code]
    refine (settles_codes before after).bind ?_
    rintro _ ⟨front, back, rfl⟩
    exact .pure (((Embeds.hole.join rfl front back).prepend _).append rfl)
  | recordField before name after =>
    simp only [fill, Expr.code]
    refine (settles_fields before name after).bind ?_
    rintro _ ⟨front, back, rfl⟩
    exact .pure (.record name front back)
  | binaryLeft op right =>
    simp only [fill, Expr.isWellFormed, Bool.and_eq_true, Option.isSome_iff_exists] at wellFormed
    obtain ⟨⟨⟨known, name⟩, _⟩, _⟩ := wellFormed
    simp only [fill, Expr.code, name, assemblyScript]
    refine .hole (.after _ fun right _ => .pure ?_)
    exact Template.encloses_fill (Dialect.closes_binary known).1 [right, right] (by simp)
  | binaryRight op left =>
    simp only [fill, Expr.isWellFormed, Bool.and_eq_true, Option.isSome_iff_exists] at wellFormed
    obtain ⟨⟨⟨known, name⟩, _⟩, _⟩ := wellFormed
    simp only [fill, Expr.code, name, assemblyScript]
    refine .after _ fun left _ => .hole (.pure ?_)
    exact Template.encloses_fill (Dialect.closes_binary known).2 [left, left] (by simp)
  | unaryOperand op =>
    simp only [fill, Expr.isWellFormed, Bool.and_eq_true, Option.isSome_iff_exists] at wellFormed
    obtain ⟨⟨known, name⟩, _⟩ := wellFormed
    simp only [fill, Expr.code, name, assemblyScript]
    exact .hole (.pure (Template.encloses_fill (Dialect.closes_unary known) [""] (by simp)))
  | callFn args =>
    simp only [fill, Expr.code]
    exact .hole (.after _ fun args _ => .pure (((Embeds.hole.append rfl).append _).append _))
  | callArg fn before after =>
    simp only [fill, Expr.code]
    refine .after _ fun fn _ => (settles_codes before after).bind ?_
    rintro _ ⟨front, back, rfl⟩
    exact .pure (((Embeds.hole.join rfl front back).prepend _).append rfl)
  | constructArg constructor before after =>
    simp only [fill, Expr.code]
    refine (settles_codes before after).bind ?_
    rintro _ ⟨front, back, rfl⟩
    exact .pure (((Embeds.hole.join rfl front back).prepend _).append rfl)
  | recordCreateField recordType before name after =>
    simp only [fill, Expr.code]
    refine (settles_fields before name after).bind ?_
    rintro _ ⟨front, back, rfl⟩
    exact .pure (((Encloses.record name front back).prepend _).append _)
  | updateTarget updates =>
    simp only [fill, Expr.code]
    exact .hole (.after _ fun updates _ => .pure (.updateTarget updates))
  | updateField target before name after =>
    simp only [fill, Expr.code]
    refine .after _ fun target _ => (settles_fields before name after).bind ?_
    rintro _ ⟨front, back, rfl⟩
    exact .pure (.updateField target name front back)
  | fieldTarget name =>
    simp only [fill, Expr.code]
    exact .hole (.pure (.property name))
  | indexTarget index =>
    simp only [fill, Expr.code]
    exact .hole (.after _ fun index _ => .pure (((Embeds.hole.append rfl).append _).append _))
  | indexIndex target =>
    simp only [fill, Expr.code]
    exact .after _ fun target _ => .hole (.pure ((Embeds.hole.prepend _).append rfl))
  | ifCondition yes no =>
    simp only [fill, Expr.code]
    refine .hole (.after _ fun yes _ => .after _ fun no _ => .pure ?_)
    exact ((((Embeds.hole.prepend _).append rfl).opening _ _).append [_, _]).closure
  | ifYes condition no =>
    simp only [fill, Expr.code]
    refine .after _ fun condition _ => .hole (.after _ fun no _ => .pure ?_)
    exact ((Embeds.hole.result.line.body _ _).append [_, _]).closure
  | ifNo condition yes =>
    simp only [fill, Expr.code]
    refine .after _ fun condition _ => .after _ fun yes _ => .hole (.pure ?_)
    exact (((Embeds.hole.result.line.body _ _).append [_]).prepend [_]).closure
  | letBinding before name after body =>
    simp only [fill, Expr.code]
    refine (settles_fields before name after).bind ?_
    rintro _ ⟨front, back, rfl⟩
    refine .after _ fun body _ => .pure ?_
    exact (LinesEnclose.branch_binding front name back body).closure
  | letBody bindings =>
    simp only [fill, Expr.code]
    exact .after _ fun bindings _ => .hole (.pure (Embeds.hole.branch bindings).closure)
  | caseScrutinee arms =>
    simp only [fill, Expr.code]
    refine .hole (.after _ fun chain _ => .pure ?_)
    exact (((Embeds.hole.prepend _).append rfl).closing _ _).layout
  | caseArm scrutinee before arm after =>
    have tested : ∀ a ∈ before, a.isCatchAll = false := by simpa [isReached] using reached
    simp only [fill, Expr.code]
    refine .after _ fun scrutinee _ => (settles_chain assemblyScript _ _ tested arm after).bind fun F hF => .pure ?_
    exact ((hF false).body _ _).layout
  | lambdaBody params =>
    simp only [fill, Expr.code]
    exact .hole (.pure (Embeds.hole.result.line.body _ _).layout)
  | tryBody handlers =>
    simp only [fill, Expr.code]
    refine .hole (.after _ fun chain _ => .pure ?_)
    exact ((Embeds.hole.result.line.body _ _).append [_, _]).closure
  | tryHandler body before handler after =>
    have tested : ∀ a ∈ before, a.isCatchAll = false := by simpa [isReached] using reached
    simp only [fill, Expr.code]
    refine .after _ fun body _ => (settles_chain assemblyScript _ _ tested handler after).bind fun F hF => .pure ?_
    exact ((((hF false).body _ _).append [_]).prepend [_]).closure
  | doStatement before statement after result =>
    simp only [fill, Expr.code]
    refine (settles_lines before statement after).bind fun F hF => .after _ fun result _ => .pure ?_
    exact (hF.append [_]).closure
  | doResult statements =>
    simp only [fill, Expr.code]
    exact .after _ fun lines _ => .hole (.pure (Embeds.hole.result.line.prepend lines).closure)
  | mapCollection iterator transform =>
    simp only [fill, Expr.code]
    exact .hole (.after _ fun transform _ => .pure (((Encloses.methodHead _ _).append _).append _))
  | mapTransform collection iterator =>
    simp only [fill, Expr.code]
    exact .after _ fun collection _ => .hole (.pure ((Embeds.hole.prepend _).append rfl))
  | filterCollection iterator predicate =>
    simp only [fill, Expr.code]
    exact .hole (.after _ fun predicate _ => .pure (((Encloses.methodHead _ _).append _).append _))
  | filterPredicate collection iterator =>
    simp only [fill, Expr.code]
    exact .after _ fun collection _ => .hole (.pure ((Embeds.hole.prepend _).append rfl))
  | foldCollection initial accumulator iterator transform =>
    simp only [fill, Expr.code]
    refine .hole (.after _ fun transform _ => .after _ fun initial _ => .pure ?_)
    exact ((((Encloses.methodHead _ _).append _).append _).append _).append _
  | foldInitial collection accumulator iterator transform =>
    simp only [fill, Expr.code]
    exact .after _ fun collection _ => .after _ fun transform _ => .hole (.pure ((Embeds.hole.prepend _).append rfl))
  | foldTransform collection initial accumulator iterator =>
    simp only [fill, Expr.code]
    refine .after _ fun collection _ => .hole (.after _ fun initial _ => .pure ?_)
    exact (((Embeds.hole.prepend _).append rfl).append _).append _
  | annotated type =>
    simp only [fill, Expr.code]
    exact .hole (.pure ((((Embeds.hole.prepend _).append rfl).append _).append _))

/-- Arms after one that takes every value are not rendered. -/
theorem Arm.chain_append (assemblyScript : s.dialect = .assemblyScript) (value fallback : Code) {before : List Arm}
    (catchAll : ∃ a ∈ before, a.isCatchAll = true) (after : List Arm) :
    Arm.chain s value fallback (before ++ after) = Arm.chain s value fallback before := by
  have reachable : Arm.reachable (before ++ after) = Arm.reachable before := by
    induction before with
    | nil => simp at catchAll
    | cons a rest ih =>
      rw [List.cons_append, Arm.reachable, Arm.reachable]
      split
      · rfl
      · rename_i tested
        rw [ih (by simpa [tested] using catchAll)]
  rw [Arm.chain_eq assemblyScript, Arm.chain_eq assemblyScript, reachable]

/-- What is in a frame that is not reached does not matter. -/
theorem Frame.code_of_not_reached (assemblyScript : s.dialect = .assemblyScript) {f : Frame}
    (h : f.isReached = false) (e e' : Expr) : (f.fill e).code s = (f.fill e').code s := by
  cases f with
  | caseArm scrutinee before arm after =>
    have catchAll : ∃ a ∈ before, a.isCatchAll = true := by simpa [isReached] using h
    simp only [fill, Expr.code, Arm.chain_append assemblyScript _ _ catchAll]
  | tryHandler body before handler after =>
    have catchAll : ∃ a ∈ before, a.isCatchAll = true := by simpa [isReached] using h
    simp only [fill, Expr.code, Arm.chain_append assemblyScript _ _ catchAll]
  | _ => simp [isReached] at h

end Frames

/-! ## Contexts -/

namespace Context

variable {s : Style}

/-- **A hole that is reached is written once,** at any depth. -/
theorem settles (assemblyScript : s.dialect = .assemblyScript) {C : Context} {e₀ : Expr}
    (wellFormed : (C.fill e₀).isWellFormed = true) (reached : C.isReached = true) :
    Settles s Embeds fun e => (C.fill e).code s := by
  induction C with
  | nil => exact .id
  | cons f inner ih =>
    rw [isReached, List.all_cons, Bool.and_eq_true] at reached
    rw [fill_cons] at wellFormed
    have frame : Settles s Encloses fun e => (f.fill e).code s := f.settles assemblyScript wellFormed reached.1
    exact frame.comp (ih (Frame.isWellFormed_of_fill wellFormed) reached.2)

/-- What is in a hole that is not reached does not matter. -/
theorem code_of_not_reached (assemblyScript : s.dialect = .assemblyScript) {C : Context} {e₀ : Expr}
    (wellFormed : (C.fill e₀).isWellFormed = true) (h : C.isReached = false) (e e' : Expr) :
    (C.fill e).code s = (C.fill e').code s := by
  induction C with
  | nil => simp [isReached] at h
  | cons f inner ih =>
    rw [fill_cons] at wellFormed
    rw [fill_cons, fill_cons]
    cases frame : f.isReached with
    | false => exact Frame.code_of_not_reached assemblyScript frame _ _
    | true =>
      -- the frame only asks for the rendering of what is in it
      obtain ⟨R, eq, _⟩ := Frame.settles assemblyScript wellFormed frame
      have unreached : isReached inner = false := by simpa [isReached, frame] using h
      exact (eq _).trans ((congrArg R (ih (Frame.isWellFormed_of_fill wellFormed) unreached)).trans (eq _).symm)

end Context

/-! ## Texts -/

section Texts

variable {s : Style} {indentation : Text} {e : Expr}

theorem Expr.render_of_code {c : Code} (h : e.code s = .ok c) :
    e.render s indentation = .ok (c.toText indentation) := by
  rw [Expr.render, h]
  rfl

theorem Expr.render_of_error {error : RenderError} (h : e.code s = .error error) :
    e.render s indentation = .error error := by
  rw [Expr.render, h]
  rfl

/-- A text that is rendered is that of some code. -/
theorem Expr.code_of_render {t : Text} (h : e.render s indentation = .ok t) :
    ∃ c, e.code s = .ok c ∧ c.toText indentation = t := by
  obtain ⟨c, code, made⟩ := Outcome.bind_eq_ok_iff.mp h
  exact ⟨c, code, Except.ok.inj made⟩

theorem Expr.code_of_render_error {error : RenderError} (h : e.render s indentation = .error error) :
    e.code s = .error error := by
  cases code : e.code s with
  | ok c => simp [Expr.render_of_code code] at h
  | error error' =>
    rw [Expr.render_of_error code] at h
    exact congrArg Except.error (Except.error.inj h)

variable {whole : Expr → Expr}

/-- A hole that is written once, as texts. -/
theorem Settles.render_eq (h : Settles s Embeds fun e => (whole e).code s) (oneLine : newline ∉ indentation) :
    (∃ error, ∀ e t, e.render s indentation = .ok t → (whole e).render s indentation = .error error) ∨
    (∃ (before after : Text) (depth : Nat) (atStart : Bool), ∀ e t, e.render s indentation = .ok t →
      (whole e).render s indentation = .ok (before ++ resumed (pad indentation depth) atStart t ++ after)) := by
  obtain ⟨R, eq, _, ⟨error, failed⟩ | ⟨F, embeds, made⟩⟩ := h
  · refine .inl ⟨error, fun e t rendered => ?_⟩
    obtain ⟨c, code, _⟩ := Expr.code_of_render rendered
    exact Expr.render_of_error ((eq e).trans ((congrArg R code).trans (failed c)))
  · obtain ⟨before, after, depth, atStart, text⟩ := embeds.toText_eq oneLine
    refine .inr ⟨before, after, depth, atStart, fun e t rendered => ?_⟩
    obtain ⟨c, code, rfl⟩ := Expr.code_of_render rendered
    rw [Expr.render_of_code ((eq e).trans ((congrArg R code).trans (made c))), text]

/-- A whole with a hole that is written once depends on nothing but the rendering of what is in it. -/
theorem Settles.render_congr (h : Settles s Embeds fun e => (whole e).code s) (oneLine : newline ∉ indentation)
    {e e' : Expr} (same : e.render s indentation = e'.render s indentation) :
    (whole e).render s indentation = (whole e').render s indentation := by
  cases rendered : e.render s indentation with
  | ok t =>
    rw [rendered] at same
    rcases h.render_eq oneLine with ⟨error, failed⟩ | ⟨before, after, depth, atStart, made⟩
    · rw [failed e t rendered, failed e' t same.symm]
    · rw [made e t rendered, made e' t same.symm]
  | error error =>
    rw [rendered] at same
    obtain ⟨R, eq, _⟩ := h
    have code : (whole e).code s = (whole e').code s := by
      refine (eq e).trans (Eq.trans ?_ (eq e').symm)
      rw [Expr.code_of_render_error rendered, Expr.code_of_render_error same.symm]
    rw [Expr.render, code, Expr.render]

end Texts

/-- **Rendering is compositional.** Take a well-formed expression with a hole. If the hole is in an arm after one that
takes every value, what is in it does not matter. If not, then either the rest cannot be rendered, or the text of what
is in the hole stands once in the text of the whole, between two texts that do not depend on it, and with more
indentation on its lines after the first one. In any case, all that matters is how what is in the hole is rendered. -/
theorem rendering_is_compositional (s : Style) (assemblyScript : s.dialect = .assemblyScript) (indentation : Text)
    (oneLine : newline ∉ indentation) (C : Context) (wellFormed : C.IsWellFormed) :
    (if C.isReached then
      (∃ error, ∀ e t, e.render s indentation = .ok t → (C.fill e).render s indentation = .error error) ∨
      (∃ (before after : Text) (depth : Nat), ∀ e t, e.render s indentation = .ok t →
        t.head? ≠ some newline → t.getLast? ≠ some newline → (C.fill e).render s indentation =
          .ok (before ++ reindented (pad indentation depth) t ++ after))
    else ∃ outcome, ∀ e, (C.fill e).render s indentation = outcome) ∧
    ∀ e e', e.render s indentation = e'.render s indentation →
      (C.fill e).render s indentation = (C.fill e').render s indentation := by
  have whole : (C.fill (.bool true)).isWellFormed = true := wellFormed _ rfl
  cases reached : C.isReached with
  | false =>
    have same (e e' : Expr) : (C.fill e).render s indentation = (C.fill e').render s indentation := by
      rw [Expr.render, Expr.render, Context.code_of_not_reached assemblyScript whole reached e e']
    exact ⟨⟨_, fun e => same e (.bool true)⟩, fun e e' _ => same e e'⟩
  | true =>
    have settled := Context.settles assemblyScript whole reached
    refine ⟨?_, fun e e' same => settled.render_congr oneLine same⟩
    refine (settled.render_eq oneLine).imp_right ?_
    rintro ⟨before, after, depth, atStart, made⟩
    refine ⟨before ++ if atStart then pad indentation depth else [], after, depth, fun e t rendered first last => ?_⟩
    rw [made e t rendered, resumed_eq _ atStart first last]
    simp only [List.append_assoc]

/-- A map over a list that a case finds, in the body of its first arm. -/
def inFirstArm : Context :=
  [.mapCollection "x" (.variable "x"),
    .caseArm (.variable "v") [] (.inBody (.constructor "Some" [.variable "n"]) none) [⟨.wildcard, none, .list []⟩]]

/-- The same case, in an arm after the one that takes every value. -/
def inDroppedArm : Context :=
  [.caseArm (.variable "v") [⟨.wildcard, none, .list []⟩] (.inGuard (.variable "n") (.list [])) []]

theorem rendering_is_compositional_inFirstArm : newline ∉ Builder.twoSpaces ∧
    inFirstArm.IsWellFormed ∧ (∃ (before after : Text) (depth : Nat), ∀ e t, e.render {} Builder.twoSpaces = .ok t →
      t.head? ≠ some newline → t.getLast? ≠ some newline → (inFirstArm.fill e).render {} Builder.twoSpaces =
        .ok (before ++ reindented (pad Builder.twoSpaces depth) t ++ after)) ∧
    inDroppedArm.IsWellFormed ∧ ∃ outcome, ∀ e, (inDroppedArm.fill e).render {} Builder.twoSpaces = outcome := by
  have oneLine : newline ∉ Builder.twoSpaces := by decide
  have first : inFirstArm.IsWellFormed := fun e wf => by
    simp [inFirstArm, Context.fill, Frame.fill, ArmFrame.fill, Expr.isWellFormed, Arm.allWellFormed, Expr.allWellFormed,
      Pattern.isWellFormed, Pattern.allWellFormed, wf]
  have dropped : inDroppedArm.IsWellFormed := fun e wf => by
    simp [inDroppedArm, Context.fill, Frame.fill, ArmFrame.fill, Expr.isWellFormed, Arm.allWellFormed,
      Expr.allWellFormed, Pattern.isWellFormed, wf]
  refine ⟨oneLine, first, ?_, dropped, (rendering_is_compositional {} rfl _ oneLine inDroppedArm dropped).1⟩
  refine (rendering_is_compositional {} rfl _ oneLine inFirstArm first).1.resolve_left ?_
  rintro ⟨error, failed⟩
  have rendered : (inFirstArm.fill (.bool true)).render {} Builder.twoSpaces = .error error :=
    failed (.bool true) "true" rfl
  cases rendered

end ExprScript
