import ExprScript.Proofs.Layout.Code
import ExprScript.Proofs.Pattern.Matcher
import ExprScript.Proofs.Pattern.Matches
import ExprScript.Proofs.Target.Condition

/-!
# Tests read as conditions

The code of a test in AssemblyScript, on a value that is at a place, is the text of a condition.

- `placeOf` is the place that a part of the value is at, and `toText_refCode` says that it is written so;
- `Spells root t c` says that the test `t` is written as the condition `c`. Conjunctions are run together
  (`Spells.all`), and alternatives become one group (`Spells.any`).
-/

namespace ExprScript.Target

/-- The place of a part of the value at `root`. -/
def placeOf (root : Place) : Ref → Place
  | .root => root
  | .argument of i arity => .property (placeOf root of) (argumentName i arity)
  | .property of name => .property (placeOf root of) name
  | .element of i => .element (placeOf root of) i
  | .slice of start => .slice (placeOf root of) start

/-- The property of an argument is accessed by name. -/
theorem isIdentifier_argumentName (i arity : Nat) : (argumentName i arity).isIdentifier = true := by
  unfold argumentName
  split
  · rfl
  · have digits : ∀ u ∈ Text.ofNat i, u.isDigit = true := fun u => Text.isDigit_of_mem_ofNat
    have head : ("arg" : Text) ++ Text.ofNat i = unit 'a' :: unit 'r' :: unit 'g' :: Text.ofNat i := rfl
    rw [head, Text.isIdentifier]
    simp only [List.all_cons, Bool.and_eq_true, List.all_eq_true, Bool.or_eq_true]
    exact ⟨rfl, .inl rfl, .inl rfl, fun u mem => .inr (digits u mem)⟩

/-- A literal is written as itself. -/
theorem literal_code {e : Expr} (h : e.isLiteral = true) (s : Style) : ∃ l code, Literal.ofExpr? e = some l ∧
    e.code s = .ok code ∧ ∀ indentation, code.toText indentation = l.text := by
  cases e with
  | int x => exact ⟨.number x, _, rfl, by rw [Expr.code]; rfl, by simp [Literal.text]⟩
  | string t => exact ⟨.string t, _, rfl, by rw [Expr.code]; rfl, by simp [Literal.text]⟩
  | bool b => exact ⟨.bool b, _, rfl, by rw [Expr.code]; rfl, by cases b <;> simp [Literal.text]⟩
  | _ => simp [Expr.isLiteral] at h

section Spelling

variable (root : Place) (indentation : Text)

theorem toText_propertyCode (target : Code) (name : Text) : (propertyCode target name).toText indentation =
    if name.isIdentifier then target.toText indentation ++ "." ++ name
    else target.toText indentation ++ "[" ++ Quoted.encode name ++ "]" := by
  unfold propertyCode
  split <;> simp

/-- **The code of a part of the value is the text of its place.** -/
theorem toText_refCode (r : Ref) :
    (r.code .assemblyScript (.text root.text)).toText indentation = (placeOf root r).text := by
  induction r with
  | root => simp [Ref.code, placeOf]
  | argument of i arity ih =>
    rw [placeOf, Place.text, if_pos (isIdentifier_argumentName i arity), Ref.code, ← ih, argumentName]
    split <;> simp [Dialect.assemblyScript, Template.fillPiece] <;> rfl
  | property of name ih => rw [Ref.code, toText_propertyCode, ih, placeOf, Place.text]
  | element of i ih => simp [Ref.code, placeOf, Place.text, ih]
  | slice of start ih => simp [Ref.code, placeOf, Place.text, ← ih, Dialect.assemblyScript, Template.fillPiece]

/-! ## Conditions -/

/-- A test is written as a condition. -/
structure Spells (t : Test) (c : Condition) : Prop where
  proper : c.isProper = true
  text (indentation : Text) : (t.code .assemblyScript (.text root.text)).toText indentation = c.text

variable {root}

/-- A test that is written as an atom. -/
theorem Spells.atom {t : Test} {a : Atom}
    (h : ∀ indentation, (t.code .assemblyScript (.text root.text)).toText indentation = a.text) :
    Spells root t [.atom a] where
  proper := by simp [Condition.isProper, Operand.allProper, Operand.isProper]
  text indentation := by simp [h, Condition.text, Operand.text]

theorem Spells.always : Spells root .always [.always] where
  proper := by simp [Condition.isProper, Operand.allProper, Operand.isProper]
  text indentation := by simp [Test.code, Condition.text, Operand.text]

/-! ## Groups -/

/-- Tests are written as conditions, one by one. -/
theorem Spells.texts {tests : List Test} {cs : List Condition} (h : List.Forall₂ (Spells root) tests cs)
    (indentation : Text) : (Test.codes .assemblyScript (.text root.text) tests).map (Code.toText indentation) =
      cs.map Condition.text := by
  induction h with
  | nil => rfl
  | cons first _ ih => rw [Test.codes, List.map_cons, ih, first.text, List.map_cons]

/-- Conditions that are spelled are proper. -/
theorem Spells.all_proper {tests : List Test} {cs : List Condition} (h : List.Forall₂ (Spells root) tests cs) :
    ∀ c ∈ cs, Condition.isProper c = true := by
  intro c mem
  obtain ⟨t, _, spelled⟩ := Outcome.exists_of_forall₂ h mem
  exact spelled.proper

theorem Spells.conditions_ne_nil {tests : List Test} {cs : List Condition} (h : List.Forall₂ (Spells root) tests cs)
    (nonempty : tests ≠ []) : cs ≠ [] := by
  rintro rfl
  exact nonempty (List.forall₂_nil_right_iff.mp h)

/-- Tests that must all hold are written as one conjunction. -/
theorem Spells.all {tests : List Test} {cs : List Condition} (h : List.Forall₂ (Spells root) tests cs)
    (nonempty : tests ≠ []) : Spells root (.all tests) cs.flatten where
  proper := Condition.isProper_flatten (conditions_ne_nil h nonempty) (all_proper h)
  text indentation := by
    have parts : ∀ ts ∈ cs.map (List.map Operand.text), ts ≠ [] := by
      intro ts mem
      obtain ⟨c, hc, rfl⟩ := List.mem_map.mp mem
      simp [(Condition.isProper_iff.mp (all_proper h c hc)).1]
    rw [Test.code, Code.toText_join, Spells.texts h, Condition.text, List.map_flatten,
      ← Text.join_flatten _ parts, List.map_map]
    rfl

theorem toText_anyCode (d : Dialect) (value : Code) (tests : List Test) (indentation : Text) :
    (Test.code d value (.any tests)).toText indentation =
      groupText ((Test.codes d value tests).map (Code.toText indentation)) := by
  rw [Test.code]
  match Test.codes d value tests with
  | [] => rfl
  | [c] => simp [groupText]
  | c :: c' :: rest => simp [groupText, Function.comp_def]

/-- Alternatives are written as one group. -/
theorem Spells.any {tests : List Test} {cs : List Condition} (h : List.Forall₂ (Spells root) tests cs)
    (nonempty : tests ≠ []) : Spells root (.any tests) [.group cs] where
  proper := by
    have group := Operand.isProper_group (conditions_ne_nil h nonempty) (all_proper h)
    simpa [Condition.isProper_iff] using group
  text indentation := by
    rw [toText_anyCode, Spells.texts h, ← Operand.text_group, Condition.text, List.map_singleton, Text.join_singleton]

/-! ## Atoms -/

section Atoms

attribute [local simp] Test.code Atom.text Dialect.assemblyScript Template.fillPiece

theorem Spells.equals (r : Ref) {e : Expr} {l : Literal} {code : Code}
    (h : ∀ indentation, code.toText indentation = l.text) :
    Spells root (.equals r e code) [.atom (.equals (placeOf root r) l)] :=
  .atom fun indentation => by simp [← toText_refCode root indentation, h]

theorem Spells.instanceOf (r : Ref) (name : Identifier) :
    Spells root (.instanceOf r name.name) [.atom (.instanceOf (placeOf root r) name)] :=
  .atom fun indentation => by simp [← toText_refCode root indentation]

theorem Spells.isArray (r : Ref) : Spells root (.isArray r) [.atom (.isArray (placeOf root r))] :=
  .atom fun indentation => by simp [← toText_refCode root indentation]

theorem Spells.notNull (r : Ref) : Spells root (.notNull r) [.atom (.notNull (placeOf root r))] :=
  .atom fun indentation => by simp [← toText_refCode root indentation]

theorem Spells.lengthIs (r : Ref) (count : Nat) :
    Spells root (.lengthIs r count) [.atom (.lengthIs (placeOf root r) count)] :=
  .atom fun indentation => by simp [← toText_refCode root indentation]

theorem Spells.lengthAtLeast (r : Ref) (count : Nat) :
    Spells root (.lengthAtLeast r count) [.atom (.lengthAtLeast (placeOf root r) count)] :=
  .atom fun indentation => by simp [← toText_refCode root indentation]

end Atoms

end Spelling

end ExprScript.Target
