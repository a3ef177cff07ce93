import ExprScript.Proofs.Target.Value
import ExprScript.Tree.Basic
import Mathlib.Data.List.Forall2

/-!
# Which values a pattern matches

`Matches s p v bindings` is the meaning of patterns: `p` matches the value `v` and binds its variables so. It says
nothing about tests or their order.

- `Accepts s p v` leaves the bindings open; there is an equivalence for each form of pattern, named after it;
- a list pattern with elements only, or with a wildcard for a tail, matches arrays of exactly that length. Any other
  tail is matched with the slice after the elements.
-/

namespace ExprScript.Target

/-- The literal that an expression is. -/
def Literal.ofExpr? : Expr → Option Literal
  | .int x => some (.number x)
  | .string t => some (.string t)
  | .bool b => some (.bool b)
  | _ => none

/-- The property that holds an argument of a constructor with `arity` arguments. -/
def argumentName (i arity : Nat) : Text := if arity = 1 then "value" else "arg" ++ Text.ofNat i

/-- The arguments that a value of a constructor was made from. -/
def State.arguments (s : State) (v : Value) (arity : Nat) : List Value :=
  (List.range arity).map fun i => s.property v (argumentName i arity)

/-- Whether only arrays without further elements match. -/
def IsExact (tail : Option Pattern) : Prop := tail = none ∨ tail = some .wildcard

mutual

/-- A pattern matches a value and binds its variables. -/
inductive Matches (s : State) : Pattern → Value → List (Text × Value) → Prop
  | wildcard {v : Value} : Matches s .wildcard v []
  | var {name : Text} {v : Value} : Matches s (.variable name) v [(name, v)]
  | literal {e : Expr} {l : Literal} {v : Value} : Literal.ofExpr? e = some l → v.equals l = true →
      Matches s (.literal e) v []
  | construct {name : Text} {args : List Pattern} {v : Value} {bindings : List (Text × Value)} :
      s.instanceOf v name = true → MatchesEach s args (s.arguments v args.length) bindings →
      Matches s (.constructor name args) v bindings
  | record {fields : List NamedPattern} {v : Value} {bindings : List (Text × Value)} : v.isNullish = false →
      MatchesEach s (fields.map NamedPattern.pattern) (fields.map fun f => s.property v f.name) bindings →
      Matches s (.record fields) v bindings
  | exactList {elements : List Pattern} {tail : Option Pattern} {v : Value} {vs : List Value}
      {bindings : List (Text × Value)} : IsExact tail → s.elements? v = some vs →
      MatchesEach s elements vs bindings → Matches s (.list elements tail) v bindings
  | openList {elements : List Pattern} {tail : Pattern} {v : Value} {vs : List Value}
      {first rest : List (Text × Value)} : tail ≠ .wildcard → s.elements? v = some vs →
      MatchesEach s elements (vs.take elements.length) first →
      Matches s tail (State.slice v elements.length) rest →
      Matches s (.list elements (some tail)) v (first ++ rest)
  | named {name : Text} {p : Pattern} {v : Value} {bindings : List (Text × Value)} : Matches s p v bindings →
      Matches s (.alias name p) v ((name, v) :: bindings)
  | choice {p : Pattern} {alternatives : List Pattern} {v : Value} {bindings : List (Text × Value)} :
      p ∈ alternatives → Matches s p v bindings → Matches s (.or alternatives) v bindings

/-- Patterns match as many values, each its own. -/
inductive MatchesEach (s : State) : List Pattern → List Value → List (Text × Value) → Prop
  | nil : MatchesEach s [] [] []
  | cons {p : Pattern} {ps : List Pattern} {v : Value} {vs : List Value} {first rest : List (Text × Value)} :
      Matches s p v first → MatchesEach s ps vs rest → MatchesEach s (p :: ps) (v :: vs) (first ++ rest)

end

/-- A pattern matches a value. -/
def Accepts (s : State) (p : Pattern) (v : Value) : Prop := ∃ bindings, Matches s p v bindings

/-! ## One form at a time -/

section Forms

variable {s : State} {v : Value}

/-- Patterns match values if each matches its own. -/
theorem exists_matchesEach_iff : ∀ {ps : List Pattern} {vs : List Value},
    (∃ bindings, MatchesEach s ps vs bindings) ↔ List.Forall₂ (Accepts s) ps vs
  | [], [] => ⟨fun _ => .nil, fun _ => ⟨[], .nil⟩⟩
  | [], _ :: _ => ⟨fun ⟨_, h⟩ => (nomatch h), fun h => (nomatch h)⟩
  | _ :: _, [] => ⟨fun ⟨_, h⟩ => (nomatch h), fun h => (nomatch h)⟩
  | p :: ps, v :: vs => by
    have ih : (∃ bindings, MatchesEach s ps vs bindings) ↔ List.Forall₂ (Accepts s) ps vs := exists_matchesEach_iff
    rw [List.forall₂_cons, ← ih]
    constructor
    · rintro ⟨_, h⟩
      cases h with
      | cons first rest => exact ⟨⟨_, first⟩, _, rest⟩
    · rintro ⟨⟨_, first⟩, _, rest⟩
      exact ⟨_, .cons first rest⟩

theorem accepts_wildcard : Accepts s .wildcard v := ⟨_, .wildcard⟩

theorem accepts_variable (name : Text) : Accepts s (.variable name) v := ⟨_, .var⟩

theorem accepts_literal_iff {e : Expr} {l : Literal} (h : Literal.ofExpr? e = some l) :
    Accepts s (.literal e) v ↔ v.equals l = true := by
  constructor
  · rintro ⟨_, m⟩
    cases m with
    | literal h' equal => rwa [← Option.some.inj (h'.symm.trans h)]
  · intro equal
    exact ⟨_, .literal h equal⟩

theorem accepts_constructor_iff {name : Text} {args : List Pattern} :
    Accepts s (.constructor name args) v ↔
      s.instanceOf v name = true ∧ List.Forall₂ (Accepts s) args (s.arguments v args.length) := by
  rw [← exists_matchesEach_iff]
  constructor
  · rintro ⟨_, m⟩
    cases m with
    | construct isInstance each => exact ⟨isInstance, _, each⟩
  · rintro ⟨isInstance, _, each⟩
    exact ⟨_, .construct isInstance each⟩

theorem accepts_record_iff {fields : List NamedPattern} :
    Accepts s (.record fields) v ↔ v.isNullish = false ∧
      List.Forall₂ (Accepts s) (fields.map NamedPattern.pattern) (fields.map fun f => s.property v f.name) := by
  rw [← exists_matchesEach_iff]
  constructor
  · rintro ⟨_, m⟩
    cases m with
    | record there each => exact ⟨there, _, each⟩
  · rintro ⟨there, _, each⟩
    exact ⟨_, .record there each⟩

theorem accepts_exactList_iff {elements : List Pattern} {tail : Option Pattern} (exact : IsExact tail) :
    Accepts s (.list elements tail) v ↔ ∃ vs, s.elements? v = some vs ∧ List.Forall₂ (Accepts s) elements vs := by
  constructor
  · rintro ⟨_, m⟩
    cases m with
    | exactList _ array each => exact ⟨_, array, exists_matchesEach_iff.mp ⟨_, each⟩⟩
    | openList notWildcard => simp [IsExact, notWildcard] at exact
  · rintro ⟨vs, array, each⟩
    obtain ⟨_, each⟩ := exists_matchesEach_iff.mpr each
    exact ⟨_, .exactList exact array each⟩

theorem accepts_openList_iff {elements : List Pattern} {tail : Pattern} (notWildcard : tail ≠ .wildcard) :
    Accepts s (.list elements (some tail)) v ↔ ∃ vs, s.elements? v = some vs ∧
      List.Forall₂ (Accepts s) elements (vs.take elements.length) ∧
      Accepts s tail (State.slice v elements.length) := by
  constructor
  · rintro ⟨_, m⟩
    cases m with
    | exactList exact => simp [IsExact, notWildcard] at exact
    | openList _ array each rest => exact ⟨_, array, exists_matchesEach_iff.mp ⟨_, each⟩, _, rest⟩
  · rintro ⟨vs, array, each, _, rest⟩
    obtain ⟨_, each⟩ := exists_matchesEach_iff.mpr each
    exact ⟨_, .openList notWildcard array each rest⟩

theorem accepts_alias_iff {name : Text} {p : Pattern} : Accepts s (.alias name p) v ↔ Accepts s p v := by
  constructor
  · rintro ⟨_, m⟩
    cases m with
    | named inner => exact ⟨_, inner⟩
  · rintro ⟨_, inner⟩
    exact ⟨_, .named inner⟩

theorem accepts_or_iff {alternatives : List Pattern} :
    Accepts s (.or alternatives) v ↔ ∃ p ∈ alternatives, Accepts s p v := by
  constructor
  · rintro ⟨_, m⟩
    cases m with
    | choice mem inner => exact ⟨_, mem, _, inner⟩
  · rintro ⟨p, mem, _, inner⟩
    exact ⟨_, .choice mem inner⟩

end Forms

end ExprScript.Target
