import ExprScript.Proofs.Outcome
import ExprScript.Proofs.Tree.WellFormed
import ExprScript.Render.Expr

/-!
# Matchers, part by part

The parts of a pattern are compiled one after the other, whatever kind of part they are: `Pattern.matchers_eq`,
`Pattern.argumentMatchers_eq`, `Pattern.elementMatchers_eq` and `NamedPattern.matchers_eq` say so in the same way, and
`Pattern.constructors` lists the constructors that a pattern names.
-/

namespace ExprScript

section Parts

variable (s : Style) (place : Ref)

theorem Pattern.matchers_eq (ps : List Pattern) :
    Pattern.matchers s place ps = ps.mapM fun p => p.matcher s place := by
  induction ps with
  | nil => rw [Pattern.matchers, List.mapM_nil]; rfl
  | cons p rest ih => rw [Pattern.matchers, ih, List.mapM_cons]

theorem Pattern.argumentMatchers_eq (arity : Nat) (ps : List Pattern) (i : Nat) :
    Pattern.argumentMatchers s place arity i ps =
      (ps.zipIdx i).mapM fun x => x.1.matcher s (.argument place x.2 arity) := by
  induction ps generalizing i with
  | nil => rw [Pattern.argumentMatchers, List.zipIdx_nil, List.mapM_nil]; rfl
  | cons p rest ih => rw [Pattern.argumentMatchers, ih, List.zipIdx_cons, List.mapM_cons]

theorem Pattern.elementMatchers_eq (ps : List Pattern) (i : Nat) :
    Pattern.elementMatchers s place i ps = (ps.zipIdx i).mapM fun x => x.1.matcher s (.element place x.2) := by
  induction ps generalizing i with
  | nil => rw [Pattern.elementMatchers, List.zipIdx_nil, List.mapM_nil]; rfl
  | cons p rest ih => rw [Pattern.elementMatchers, ih, List.zipIdx_cons, List.mapM_cons]

theorem NamedPattern.matchers_eq (fields : List NamedPattern) :
    NamedPattern.matchers s place fields = fields.mapM fun f => f.pattern.matcher s (.property place f.name) := by
  induction fields with
  | nil => rw [NamedPattern.matchers, List.mapM_nil]; rfl
  | cons f rest ih =>
    obtain ⟨name, pattern⟩ := f
    rw [NamedPattern.matchers, ih, List.mapM_cons]

/-- A choice with alternatives compiles them first, and only then looks at their variables. -/
theorem Pattern.matcher_or {ps : List Pattern} (nonempty : ps ≠ []) : (Pattern.or ps).matcher s place =
    (ps.mapM fun p => p.matcher s place) >>= Matcher.choice ps := by
  rw [Pattern.matcher, Pattern.matchers_eq]
  exact nonempty

/-- A tail that is no wildcard is compiled for the slice after the elements. -/
theorem Pattern.matcher_openList (elements : List Pattern) {tail : Pattern} (notWildcard : tail ≠ .wildcard) :
    (Pattern.list elements (some tail)).matcher s place = (do
      let parts ← Pattern.elementMatchers s place 0 elements
      let rest ← tail.matcher s (.slice place elements.length)
      return Matcher.conjunction (.isArray place) (parts ++ [⟨.lengthAtLeast place elements.length, []⟩, rest])) := by
  rw [Pattern.matcher]
  exact notWildcard

variable {s place}

/-- A list pattern is tested for an array first. -/
theorem Pattern.matcher_list {elements : List Pattern} {tail : Option Pattern} {m : Matcher}
    (compiled : (Pattern.list elements tail).matcher s place = .ok m) :
    ∃ parts, m = Matcher.conjunction (.isArray place) parts := by
  cases tail with
  | none =>
    rw [Pattern.matcher] at compiled
    obtain ⟨ms, _, made⟩ := Outcome.bind_eq_ok_iff.mp compiled
    exact ⟨_, (Except.ok.inj made).symm⟩
  | some t =>
    by_cases wildcard : t = .wildcard
    · subst wildcard
      rw [Pattern.matcher] at compiled
      obtain ⟨ms, _, made⟩ := Outcome.bind_eq_ok_iff.mp compiled
      exact ⟨_, (Except.ok.inj made).symm⟩
    · rw [Pattern.matcher_openList s place elements wildcard] at compiled
      obtain ⟨ms, _, compiled⟩ := Outcome.bind_eq_ok_iff.mp compiled
      obtain ⟨rest, _, made⟩ := Outcome.bind_eq_ok_iff.mp compiled
      exact ⟨_, (Except.ok.inj made).symm⟩

end Parts

/-! ## Constructors -/

mutual

/-- The constructors that a pattern names. -/
def Pattern.constructors : Pattern → List Text
  | .constructor name args => name :: Pattern.allConstructors args
  | .record fields => NamedPattern.allConstructors fields
  | .list elements none => Pattern.allConstructors elements
  | .list elements (some tail) => Pattern.allConstructors elements ++ tail.constructors
  | .alias _ pattern => pattern.constructors
  | .or alternatives => Pattern.allConstructors alternatives
  | .wildcard | .variable _ | .literal _ | .foreign _ => []

/-- The constructors that patterns name. -/
def Pattern.allConstructors : List Pattern → List Text
  | [] => []
  | p :: rest => p.constructors ++ Pattern.allConstructors rest

/-- The constructors that the patterns of fields name. -/
def NamedPattern.allConstructors : List NamedPattern → List Text
  | [] => []
  | ⟨_, pattern⟩ :: rest => pattern.constructors ++ NamedPattern.allConstructors rest

end

section Constructors

variable {name : Text}

theorem Pattern.mem_allConstructors {ps : List Pattern} :
    name ∈ Pattern.allConstructors ps ↔ ∃ p ∈ ps, name ∈ p.constructors := by
  induction ps with
  | nil => simp [Pattern.allConstructors]
  | cons p rest ih => simp [Pattern.allConstructors, ih]

theorem NamedPattern.mem_allConstructors {fields : List NamedPattern} :
    name ∈ NamedPattern.allConstructors fields ↔ ∃ f ∈ fields, name ∈ f.pattern.constructors := by
  induction fields with
  | nil => simp [NamedPattern.allConstructors]
  | cons f rest ih =>
    obtain ⟨_, pattern⟩ := f
    simp [NamedPattern.allConstructors, ih]

theorem Pattern.mem_constructors_list {elements : List Pattern} {tail : Option Pattern} :
    name ∈ (Pattern.list elements tail).constructors ↔
      (∃ p ∈ elements, name ∈ p.constructors) ∨ ∃ t ∈ tail, name ∈ t.constructors := by
  cases tail with
  | none => simp [Pattern.constructors, Pattern.mem_allConstructors]
  | some t => simp [Pattern.constructors, Pattern.mem_allConstructors]

end Constructors

end ExprScript
