import ExprScript.Proofs.Pattern.Places

/-!
# Running tests

- `Test.eval` runs a test on the value at a place, from left to right, and faults if a place in the value cannot be
  read. A constructor is whatever its name denotes, be it an identifier or not;
- `Test.IsRead root t` says that the code of the test is the text of a condition, which is evaluated as the test is
  run. The tests of a well-formed pattern that names constructors by identifiers are read so (`isRead_of_wellFormed`).
-/

namespace ExprScript

open Target

mutual

/-- Runs a test on the value at a place. -/
def Test.eval (σ : State) (root : Place) : Test → Reading Bool
  | .always => .ok true
  | .never => .ok false
  | .equals r literal _ => do
    let v ← (placeOf root r).eval σ
    match Literal.ofExpr? literal with
    | some l => return v.equals l
    | none => .error .unfollowed
  | .instanceOf r constructor => return σ.instanceOf (← (placeOf root r).eval σ) constructor
  | .isArray r => return (σ.elements? (← (placeOf root r).eval σ)).isSome
  | .notNull r => return !(← (placeOf root r).eval σ).isNullish
  | .lengthIs r count => return (← σ.readElements (← (placeOf root r).eval σ)).length == count
  | .lengthAtLeast r count => return decide (count ≤ (← σ.readElements (← (placeOf root r).eval σ)).length)
  | .all tests => Test.evalAll σ root tests
  | .any tests => Test.evalAny σ root tests

/-- Runs tests up to the first that fails. -/
def Test.evalAll (σ : State) (root : Place) : List Test → Reading Bool
  | [] => .ok true
  | t :: rest => do if ← t.eval σ root then Test.evalAll σ root rest else return false

/-- Runs tests up to the first that holds. -/
def Test.evalAny (σ : State) (root : Place) : List Test → Reading Bool
  | [] => .ok false
  | t :: rest => do if ← t.eval σ root then return true else Test.evalAny σ root rest

end

namespace Test

/-! ## What it takes to hold -/

section Holds

variable {σ : State} {root : Place}

/-- A run goes on to `true` through a test only if the test holds. -/
theorem ite_eq_ok_true_iff {x rest : Reading Bool} :
    (do if ← x then rest else return false) = Except.ok true ↔ x = .ok true ∧ rest = .ok true := by
  match x with
  | .error e => simp
  | .ok false => simp
  | .ok true => simp

theorem holds_all_iff {tests : List Test} :
    (Test.all tests).eval σ root = .ok true ↔ ∀ t ∈ tests, t.eval σ root = .ok true := by
  rw [Test.eval]
  induction tests with
  | nil => simp [Test.evalAll]
  | cons t rest ih => rw [Test.evalAll, ite_eq_ok_true_iff, ih, List.forall_mem_cons]

theorem exists_of_holds_any {tests : List Test} (h : (Test.any tests).eval σ root = .ok true) :
    ∃ t ∈ tests, t.eval σ root = .ok true := by
  rw [Test.eval] at h
  induction tests with
  | nil => simp [Test.evalAny] at h
  | cons t rest ih =>
    rw [Test.evalAny] at h
    match run : t.eval σ root with
    | .error e => simp [run] at h
    | .ok true => exact ⟨t, List.mem_cons_self, run⟩
    | .ok false =>
      obtain ⟨t', mem, holds⟩ := ih (by simpa [run] using h)
      exact ⟨t', List.mem_cons_of_mem t mem, holds⟩

/-- All tests of a conjunction hold: the first, and those of the parts. -/
theorem holds_conjunction_iff {first : Test} {parts : List Matcher} :
    (Matcher.conjunction first parts).test.eval σ root = .ok true ↔
      first.eval σ root = .ok true ∧ ∀ m ∈ parts, m.test.eval σ root = .ok true := by
  rw [Matcher.conjunction, holds_all_iff, List.forall_mem_cons, List.forall_mem_map]

variable {r : Ref} {v : Value} (read : (placeOf root r).eval σ = .ok v)

include read

theorem holds_equals_iff {e : Expr} {code : Code} :
    (Test.equals r e code).eval σ root = .ok true ↔ ∃ l, Literal.ofExpr? e = some l ∧ v.equals l = true := by
  rw [Test.eval, read]
  cases Literal.ofExpr? e with
  | none => simp
  | some l => simp

theorem holds_instanceOf_iff {name : Text} :
    (Test.instanceOf r name).eval σ root = .ok true ↔ σ.instanceOf v name = true := by
  simp [Test.eval, read]

theorem holds_notNull_iff : (Test.notNull r).eval σ root = .ok true ↔ v.isNullish = false := by
  simp [Test.eval, read]

theorem holds_isArray_iff : (Test.isArray r).eval σ root = .ok true ↔ ∃ vs, σ.elements? v = some vs := by
  simp [Test.eval, read, Option.isSome_iff_exists]

theorem holds_lengthIs_iff {vs : List Value} (array : σ.elements? v = some vs) {count : Nat} :
    (Test.lengthIs r count).eval σ root = .ok true ↔ (vs.length == count) = true := by
  simp [Test.eval, read, State.readElements_of_array array]

theorem holds_lengthAtLeast_iff {vs : List Value} (array : σ.elements? v = some vs) {count : Nat} :
    (Test.lengthAtLeast r count).eval σ root = .ok true ↔ decide (count ≤ vs.length) = true := by
  simp [Test.eval, read, State.readElements_of_array array]

end Holds

/-! ## Tests read as conditions -/

/-- The code of a test is the text of a condition that is evaluated as the test is run. -/
structure ReadsAs (root : Place) (t : Test) (c : Condition) : Prop extends Spells root t c where
  run (σ : State) : c.eval σ = t.eval σ root

/-- The code of a test can be read as a condition. -/
def IsRead (root : Place) (t : Test) : Prop := ∃ c, ReadsAs root t c

section Reading

variable {root : Place}

theorem eval_singleton (σ : State) (o : Operand) : Condition.eval σ [o] = o.eval σ := by
  rw [Condition.eval_cons]
  match o.eval σ with
  | .error e => rfl
  | .ok false => rfl
  | .ok true => simp

theorem IsRead.always : IsRead root .always :=
  ⟨[.always], .always, fun σ => by rw [eval_singleton, Operand.eval, Test.eval]⟩

/-- An elementary test that is written as an atom. -/
theorem IsRead.atom {t : Test} {a : Atom} (spelled : Spells root t [.atom a]) (run : ∀ σ, a.eval σ = t.eval σ root) :
    IsRead root t :=
  ⟨[.atom a], spelled, fun σ => by rw [eval_singleton, Operand.eval, run]⟩

theorem IsRead.equals (r : Ref) {e : Expr} {l : Literal} {code : Code} (isLiteral : Literal.ofExpr? e = some l)
    (written : ∀ indentation, code.toText indentation = l.text) : IsRead root (.equals r e code) :=
  .atom (.equals r written) fun σ => by simp only [Atom.eval, Test.eval, isLiteral]

theorem IsRead.instanceOf (r : Ref) (name : Identifier) : IsRead root (.instanceOf r name.name) :=
  .atom (.instanceOf r name) fun σ => by rw [Atom.eval, Test.eval]

theorem IsRead.isArray (r : Ref) : IsRead root (.isArray r) :=
  .atom (.isArray r) fun σ => by rw [Atom.eval, Test.eval]

theorem IsRead.notNull (r : Ref) : IsRead root (.notNull r) :=
  .atom (.notNull r) fun σ => by rw [Atom.eval, Test.eval]

theorem IsRead.lengthIs (r : Ref) (count : Nat) : IsRead root (.lengthIs r count) :=
  .atom (.lengthIs r count) fun σ => by rw [Atom.eval, Test.eval]

theorem IsRead.lengthAtLeast (r : Ref) (count : Nat) : IsRead root (.lengthAtLeast r count) :=
  .atom (.lengthAtLeast r count) fun σ => by rw [Atom.eval, Test.eval]

/-- Tests that can be read one by one are read as a list of conditions. -/
theorem exists_conditions {tests : List Test} (h : ∀ t ∈ tests, IsRead root t) :
    ∃ cs, List.Forall₂ (ReadsAs root) tests cs := by
  induction tests with
  | nil => exact ⟨[], .nil⟩
  | cons t rest ih =>
    obtain ⟨⟨c, first⟩, others⟩ := List.forall_mem_cons.mp h
    obtain ⟨cs, rest⟩ := ih others
    exact ⟨c :: cs, .cons first rest⟩

theorem IsRead.all {tests : List Test} (h : ∀ t ∈ tests, IsRead root t) (nonempty : tests ≠ []) :
    IsRead root (.all tests) := by
  obtain ⟨cs, each⟩ := exists_conditions h
  refine ⟨cs.flatten, .all (each.imp fun _ _ read => read.toSpells) nonempty, fun σ => ?_⟩
  rw [Test.eval]
  clear h nonempty
  induction each with
  | nil => rw [List.flatten_nil, Condition.eval_nil, Test.evalAll]
  | cons first _ ih => rw [List.flatten_cons, Condition.eval_append, first.run, ih, Test.evalAll]

theorem IsRead.any {tests : List Test} (h : ∀ t ∈ tests, IsRead root t) (nonempty : tests ≠ []) :
    IsRead root (.any tests) := by
  obtain ⟨cs, each⟩ := exists_conditions h
  refine ⟨[.group cs], .any (each.imp fun _ _ read => read.toSpells) nonempty, fun σ => ?_⟩
  rw [eval_singleton, Operand.eval_group, Test.eval]
  clear h nonempty
  induction each with
  | nil => rw [List.map_nil, Operand.evalAny_nil, Test.evalAny]
  | cons first _ ih => rw [List.map_cons, Operand.evalAny_cons, first.run, ih, Test.evalAny]

theorem IsRead.conjunction {first : Test} {parts : List Matcher} (head : IsRead root first)
    (each : ∀ m ∈ parts, IsRead root m.test) : IsRead root (Matcher.conjunction first parts).test := by
  refine .all (List.forall_mem_cons.mpr ⟨head, fun t mem => ?_⟩) (by simp)
  obtain ⟨m, hm, rfl⟩ := List.mem_map.mp mem
  exact each m hm

end Reading

end Test

/-- **The condition of a compiled pattern can be read**, if the pattern is well-formed and names constructors by
identifiers. -/
theorem isRead_of_wellFormed (s : Style) (root : Place) (p : Pattern) : p.isWellFormed = true →
    (∀ name ∈ p.constructors, name.isIdentifier = true) → ∀ r m, p.matcher s r = .ok m → Test.IsRead root m.test := by
  induction p using Pattern.inductionOn with
  | wildcard | var =>
    intro _ _ r m compiled
    rw [Pattern.matcher] at compiled
    obtain rfl := Except.ok.inj compiled
    exact .always
  | literal e =>
    intro wellFormed _ r m compiled
    rw [Pattern.isWellFormed, Bool.and_eq_true] at wellFormed
    obtain ⟨code, written, rfl⟩ := Pattern.matcher_literal compiled
    obtain ⟨l, code', isLiteral, written', text⟩ := literal_code wellFormed.1 s
    obtain rfl := Except.ok.inj (written.symm.trans written')
    exact .equals r isLiteral text
  | construct name args ih =>
    intro wellFormed identifiers r m compiled
    rw [Pattern.isWellFormed, Pattern.allWellFormed_iff] at wellFormed
    simp only [Pattern.constructors, List.forall_mem_cons, Pattern.mem_allConstructors] at identifiers
    obtain ⟨ms, each, rfl⟩ := Pattern.matcher_construct compiled
    refine .conjunction (.instanceOf r ⟨name, identifiers.1⟩) fun m mem => ?_
    obtain ⟨x, hx, compiled'⟩ := Outcome.exists_of_forall₂ each mem
    have part := List.fst_mem_of_mem_zipIdx hx
    exact ih x.1 part (wellFormed _ part) (fun c hc => identifiers.2 c ⟨_, part, hc⟩) _ _ compiled'
  | record fields ih =>
    intro wellFormed identifiers r m compiled
    rw [Pattern.isWellFormed, NamedPattern.allWellFormed_iff] at wellFormed
    simp only [Pattern.constructors, NamedPattern.mem_allConstructors] at identifiers
    obtain ⟨ms, each, rfl⟩ := Pattern.matcher_record compiled
    refine .conjunction (.notNull r) fun m mem => ?_
    obtain ⟨f, part, compiled'⟩ := Outcome.exists_of_forall₂ each mem
    exact ih f part (wellFormed f part) (fun c hc => identifiers c ⟨f, part, hc⟩) _ _ compiled'
  | list elements tail ih ihTail =>
    intro wellFormed identifiers r m compiled
    obtain ⟨wellFormed, wellFormedTail⟩ := Pattern.isWellFormed_list_iff.mp wellFormed
    simp only [Pattern.mem_constructors_list] at identifiers
    obtain ⟨ms, rest, each, rfl, cases⟩ := Pattern.matcher_list_cases compiled
    refine .conjunction (.isArray r) (List.forall_mem_append.mpr ⟨fun m mem => ?_, ?_⟩)
    · obtain ⟨x, hx, compiled'⟩ := Outcome.exists_of_forall₂ each mem
      have part := List.fst_mem_of_mem_zipIdx hx
      exact ih x.1 part (wellFormed _ part) (fun c hc => identifiers c (.inl ⟨_, part, hc⟩)) _ _ compiled'
    · rcases cases with ⟨-, others, rfl, always⟩ | ⟨t, m', rfl, -, compiled', rfl⟩
      · exact List.forall_mem_cons.mpr ⟨.lengthIs r _, fun other mem => always other mem ▸ .always⟩
      · have last := ihTail t rfl (wellFormedTail t rfl) (fun c hc => identifiers c (.inr ⟨t, rfl, hc⟩)) _ _ compiled'
        exact List.forall_mem_cons.mpr ⟨.lengthAtLeast r _, by simpa using last⟩
  | named name p ih =>
    intro wellFormed identifiers r m compiled
    rw [Pattern.isWellFormed] at wellFormed
    rw [Pattern.constructors] at identifiers
    obtain ⟨inner, compiled', rfl⟩ := Pattern.matcher_alias compiled
    exact ih wellFormed identifiers r inner compiled'
  | choice ps ih =>
    intro wellFormed identifiers r m compiled
    rw [Pattern.isWellFormed, Bool.and_eq_true, Pattern.allWellFormed_iff] at wellFormed
    simp only [Pattern.constructors, Pattern.mem_allConstructors] at identifiers
    obtain ⟨-, -, ⟨rfl, -⟩ | ⟨nonempty, ms, each, test⟩⟩ := Pattern.matcher_or_cases compiled
    · simp at wellFormed
    · rw [test]
      refine .any (fun t mem => ?_) ?_
      · obtain ⟨m', hm, rfl⟩ := List.mem_map.mp mem
        obtain ⟨p, part, compiled'⟩ := Outcome.exists_of_forall₂ each hm
        exact ih p part (wellFormed.2 p part) (fun c hc => identifiers c ⟨p, part, hc⟩) _ _ compiled'
      · rintro none
        rw [List.map_eq_nil_iff] at none
        subst none
        exact nonempty (List.forall₂_nil_right_iff.mp each)
  | foreign node =>
    intro wellFormed
    simp [Pattern.isWellFormed] at wellFormed

end ExprScript
