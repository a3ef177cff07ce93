import ExprScript.Proofs.Layout.Code
import ExprScript.Proofs.Pattern.Matcher
import ExprScript.Proofs.Tree.Induction

/-!
# Arms that can be reached

An arm without a guard whose pattern is irrefutable takes every value, so the arms after it are never tried.

- `readsTrue_condition`: in AssemblyScript, the condition of a pattern reads `true` exactly if the pattern is
  irrefutable, which is a wildcard or a variable under any number of names;
- `Arm.chain_eq`: the chain of arms is the chain of the arms that can be reached, rendered one by one.
-/

namespace ExprScript

/-- Whether a pattern is a wildcard or a variable, under any number of names. -/
def Pattern.isIrrefutable : Pattern → Bool
  | .wildcard | .variable _ => true
  | .alias _ pattern => pattern.isIrrefutable
  | _ => false

/-! ## Conditions that read `true` -/

/-- A text has a unit that `true` does not have. -/
def Stray (t : Text) : Prop := ∃ u ∈ t, u ∉ ("true" : Text)

namespace Stray

theorem ne_true {t : Text} (h : Stray t) : t ≠ "true" := by
  rintro rfl
  obtain ⟨u, mem, notMem⟩ := h
  exact notMem mem

theorem of_blank {t : Text} (h : unit ' ' ∈ t) : Stray t := ⟨_, h, by decide⟩

theorem of_paren {t : Text} (h : unit '(' ∈ t) : Stray t := ⟨_, h, by decide⟩

/-- What is joined starts with its first part. -/
theorem join {t : Text} (h : Stray t) (separator : Text) (ts : List Text) : Stray (Text.join separator (t :: ts)) := by
  obtain ⟨u, mem, notMem⟩ := h
  refine ⟨u, ?_, notMem⟩
  cases ts with
  | nil => simpa using mem
  | cons t' ts =>
    rw [Text.join_cons (by simp)]
    simp [mem]

end Stray

section Conditions

variable {value : Code}

/-- A test whose text is not `true`. -/
def Test.IsStray (value : Code) (t : Test) : Prop := Stray ((t.code .assemblyScript value).toText [])

theorem Test.isStray_conjunction {first : Test} (h : first.IsStray value) (parts : List Matcher) :
    (Matcher.conjunction first parts).test.IsStray value := by
  rw [Test.IsStray, Matcher.conjunction, Test.code, Code.toText_join, Test.codes, List.map_cons]
  exact h.join _ _

theorem Test.isStray_any (tests : List Test) : (Test.any tests).IsStray value := by
  apply Stray.of_paren
  rw [Test.code]
  split <;> simp [show unit '(' ∈ ("(" : Text) by decide]

theorem Test.isStray_never : Test.never.IsStray value :=
  ⟨unit 'f', by rw [Test.code, Code.toText_text]; decide, by decide⟩

theorem Test.isStray_equals (place : Ref) (e : Expr) (code : Code) : (Test.equals place e code).IsStray value :=
  .of_blank (by
    simp [Test.code, Dialect.assemblyScript, Template.fillPiece, show unit ' ' ∈ (" === " : Text) by decide])

theorem Test.isStray_instanceOf (place : Ref) (name : Text) : (Test.instanceOf place name).IsStray value :=
  .of_blank (by
    simp [Test.code, Dialect.assemblyScript, Template.fillPiece, show unit ' ' ∈ (" instanceof " : Text) by decide])

theorem Test.isStray_isArray (place : Ref) : (Test.isArray place).IsStray value :=
  .of_paren (by
    simp [Test.code, Dialect.assemblyScript, Template.fillPiece, show unit '(' ∈ ("Array.isArray(" : Text) by decide])

theorem Test.isStray_notNull (place : Ref) : (Test.notNull place).IsStray value :=
  .of_blank (by
    simp [Test.code, Dialect.assemblyScript, Template.fillPiece, show unit ' ' ∈ (" != null" : Text) by decide])

variable {s : Style}

/-- An irrefutable pattern needs no test, and any other has one that is seen. -/
theorem test_of_matcher (value : Code) {p : Pattern} {place : Ref} {m : Matcher}
    (compiled : p.matcher s place = .ok m) :
    if p.isIrrefutable then m.test = .always else m.test.IsStray value := by
  induction p using Pattern.inductionOn generalizing place m with
  | wildcard =>
    rw [Pattern.matcher] at compiled
    obtain rfl := Except.ok.inj compiled
    rfl
  | var name =>
    rw [Pattern.matcher] at compiled
    obtain rfl := Except.ok.inj compiled
    rfl
  | literal e =>
    rw [Pattern.matcher] at compiled
    obtain ⟨code, _, made⟩ := Outcome.bind_eq_ok_iff.mp compiled
    obtain rfl := Except.ok.inj made
    exact Test.isStray_equals place e code
  | construct name args =>
    rw [Pattern.matcher] at compiled
    obtain ⟨ms, _, made⟩ := Outcome.bind_eq_ok_iff.mp compiled
    obtain rfl := Except.ok.inj made
    exact Test.isStray_conjunction (Test.isStray_instanceOf place name) ms
  | record fields =>
    rw [Pattern.matcher] at compiled
    obtain ⟨ms, _, made⟩ := Outcome.bind_eq_ok_iff.mp compiled
    obtain rfl := Except.ok.inj made
    exact Test.isStray_conjunction (Test.isStray_notNull place) ms
  | list elements tail =>
    obtain ⟨parts, shape⟩ := Pattern.matcher_list compiled
    rw [shape]
    exact Test.isStray_conjunction (Test.isStray_isArray place) parts
  | named name p ih =>
    rw [Pattern.matcher] at compiled
    obtain ⟨m', compiled', made⟩ := Outcome.bind_eq_ok_iff.mp compiled
    obtain rfl := Except.ok.inj made
    have inner := ih compiled'
    exact inner
  | choice ps =>
    by_cases empty : ps = []
    · subst empty
      rw [Pattern.matcher] at compiled
      obtain rfl := Except.ok.inj compiled
      exact Test.isStray_never
    · rw [Pattern.matcher_or s place empty] at compiled
      obtain ⟨ms, _, made⟩ := Outcome.bind_eq_ok_iff.mp compiled
      unfold Matcher.choice at made
      split at made
      · obtain rfl := Except.ok.inj made
        exact Test.isStray_any _
      · cases made
  | foreign node =>
    rw [Pattern.matcher] at compiled
    cases compiled

/-- In AssemblyScript, a condition reads `true` exactly if its pattern is irrefutable. -/
theorem readsTrue_condition (assemblyScript : s.dialect = .assemblyScript) (value : Code) {p : Pattern} {place : Ref}
    {m : Matcher} (compiled : p.matcher s place = .ok m) :
    (m.condition s.dialect value).readsTrue = p.isIrrefutable := by
  have test := test_of_matcher value compiled
  rw [Matcher.condition, Code.readsTrue, assemblyScript]
  split at test
  · rename_i irrefutable
    rw [irrefutable, test, Test.code, Code.toText_text]
    rfl
  · rename_i refutable
    rw [Bool.not_eq_true] at refutable
    rw [refutable]
    exact beq_eq_false_iff_ne.mpr test.ne_true

end Conditions

/-! ## Chains -/

/-- Whether an arm takes every value. -/
def Arm.isCatchAll (a : Arm) : Bool := a.guard.isNone && a.pattern.isIrrefutable

/-- The arms up to the first one that takes every value. -/
def Arm.reachable : List Arm → List Arm
  | [] => []
  | a :: rest => if a.isCatchAll then [a] else a :: Arm.reachable rest

theorem Arm.mem_of_mem_reachable {a : Arm} {arms : List Arm} (h : a ∈ Arm.reachable arms) : a ∈ arms := by
  induction arms with
  | nil => exact h
  | cons b rest ih =>
    rw [Arm.reachable] at h
    split at h
    · exact List.mem_cons.mpr (.inl (List.mem_singleton.mp h))
    · exact List.mem_cons.mpr ((List.mem_cons.mp h).imp_right ih)

/-- An arm with its parts rendered. -/
structure RenderedArm where
  condition : Code
  guard : Option Code
  branch : Branch

/-- Renders a guard that is there. -/
def Arm.guardCode (s : Style) : Option Expr → Rendered (Option Code)
  | none => .ok none
  | some g => some <$> g.code s

/-- Renders the parts of an arm: the pattern, the guard and the body. -/
def Arm.rendered (s : Style) (value : Code) (a : Arm) : Rendered RenderedArm := do
  let m ← a.pattern.matcher s .root
  let guard ← Arm.guardCode s a.guard
  return ⟨m.condition s.dialect value, guard, ⟨m.bindingCodes s.dialect value, ← a.body.code s⟩⟩

/-- The parts of an arm can be rendered. -/
def Arm.Renders (s : Style) (a : Arm) : Prop :=
  (∃ m, a.pattern.matcher s .root = .ok m) ∧ (∀ g ∈ a.guard, ∃ code, g.code s = .ok code) ∧
    ∃ code, a.body.code s = .ok code

/-- The chain of rendered arms; one that needs no test ends it. -/
def Chain.ofArms (fallback : Code) : List RenderedArm → Chain
  | [] => .fallback fallback
  | r :: rest =>
    if r.guard.isNone && r.condition.readsTrue then .otherwise r.branch
    else .test r.condition r.guard r.branch (Chain.ofArms fallback rest)

theorem Arm.chain_cons (s : Style) (value fallback : Code) (a : Arm) (rest : List Arm) :
    Arm.chain s value fallback (a :: rest) = (do
      let r ← a.rendered s value
      if r.guard.isNone && r.condition.readsTrue then return .otherwise r.branch
      else return .test r.condition r.guard r.branch (← Arm.chain s value fallback rest)) := by
  obtain ⟨pattern, guard, body⟩ := a
  cases guard with
  | none =>
    rw [Arm.chain, Arm.rendered, Arm.guardCode]
    simp
  | some g =>
    rw [Arm.chain, Arm.rendered, Arm.guardCode]
    simp

section Chains

variable {s : Style} {value : Code}

/-- What the rendered parts of an arm are. -/
theorem Arm.rendered_eq_ok_iff {a : Arm} {r : RenderedArm} : a.rendered s value = .ok r ↔
    ∃ m guard body, a.pattern.matcher s .root = .ok m ∧ Arm.guardCode s a.guard = .ok guard ∧ a.body.code s = .ok body ∧
      r = ⟨m.condition s.dialect value, guard, ⟨m.bindingCodes s.dialect value, body⟩⟩ := by
  simp only [Arm.rendered, Outcome.bind_eq_ok_iff, Outcome.pure_eq_ok, Except.ok.injEq]
  constructor
  · rintro ⟨m, compiled, guard, hg, body, hb, rfl⟩
    exact ⟨m, guard, body, compiled, hg, hb, rfl⟩
  · rintro ⟨m, guard, body, compiled, hg, hb, rfl⟩
    exact ⟨m, compiled, guard, hg, body, hb, rfl⟩

theorem Arm.Renders.rendered {a : Arm} (h : a.Renders s) (value : Code) : ∃ r, a.rendered s value = .ok r := by
  obtain ⟨⟨m, compiled⟩, guards, body, hb⟩ := h
  have guard : ∃ guard, Arm.guardCode s a.guard = .ok guard := by
    cases hg : a.guard with
    | none => exact ⟨none, rfl⟩
    | some g =>
      obtain ⟨code, hc⟩ := guards g (by simp [hg])
      exact ⟨some code, by simp [Arm.guardCode, hc]⟩
  obtain ⟨guard, hg⟩ := guard
  exact ⟨_, Arm.rendered_eq_ok_iff.mpr ⟨m, guard, body, compiled, hg, hb, rfl⟩⟩

theorem Arm.isNone_guardCode {guard : Option Expr} {code : Option Code} (h : Arm.guardCode s guard = .ok code) :
    code.isNone = guard.isNone := by
  cases guard with
  | none =>
    obtain rfl := Except.ok.inj h
    rfl
  | some g =>
    obtain ⟨c, _, rfl⟩ := Outcome.fmap_eq_ok_iff.mp h
    rfl

/-- A rendered arm needs no test exactly if the arm takes every value. -/
theorem Arm.isCatchAll_of_rendered (assemblyScript : s.dialect = .assemblyScript) {a : Arm} {r : RenderedArm}
    (rendered : a.rendered s value = .ok r) : (r.guard.isNone && r.condition.readsTrue) = a.isCatchAll := by
  obtain ⟨m, guard, body, compiled, hg, _, rfl⟩ := Arm.rendered_eq_ok_iff.mp rendered
  rw [Arm.isNone_guardCode hg, readsTrue_condition assemblyScript value compiled, Arm.isCatchAll]

/-- **The chain of arms is that of the arms that can be reached.** -/
theorem Arm.chain_eq (assemblyScript : s.dialect = .assemblyScript) (fallback : Code) (arms : List Arm) :
    Arm.chain s value fallback arms = Chain.ofArms fallback <$> (Arm.reachable arms).mapM (Arm.rendered s value) := by
  induction arms with
  | nil => rw [Arm.chain, Arm.reachable, List.mapM_nil]; rfl
  | cons a rest ih =>
    rw [Arm.chain_cons, Arm.reachable]
    cases rendered : a.rendered s value with
    | error e => split <;> simp [List.mapM_cons, rendered]
    | ok r =>
      have last := Arm.isCatchAll_of_rendered assemblyScript rendered
      simp only [Outcome.ok_bind, last]
      split
      · rename_i catchAll
        simp [List.mapM_cons, rendered, Chain.ofArms, last, catchAll]
      · rename_i tested
        rw [ih, List.mapM_cons, rendered]
        cases (Arm.reachable rest).mapM (Arm.rendered s value) with
        | error e => rfl
        | ok rs => simp [Chain.ofArms, last, tested]

end Chains

end ExprScript
