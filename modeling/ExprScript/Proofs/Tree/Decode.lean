import ExprScript.Proofs.Outcome
import ExprScript.Proofs.Text.Basic
import ExprScript.Tree.Decode

/-!
# Facts about decoding

- looking a member up goes through the members in order (`Json.find_cons`);
- the names of kinds read back (`ExprKind.ofName?_name` and its siblings);
- an outcome within a step is a result exactly if the outcome is (`Decoded.within_eq_ok_iff`);
- the readers of elements are all one reader, `Decode.itemsWith`, which gives a list exactly if every element is read
  (`Decode.itemsWith_eq_ok_iff`).
-/

namespace ExprScript

/-! ## Members and kinds -/

namespace Json

theorem find_nil (name : Text) : find name [] = if name = "constructor" then .inherited else .nothing := rfl

theorem find_cons (name : Text) (m : Member) (ms : List Member) :
    find name (m :: ms) = if m.name = name then .value m.value else find name ms := by
  unfold find
  rw [get?]
  by_cases h : m.name = name
  · rw [if_pos h, if_pos h]
  · rw [if_neg h, if_neg h]

end Json

@[simp]
theorem ExprKind.ofName?_name (k : ExprKind) : ofName? k.name = some k := by
  cases k <;> decide

@[simp]
theorem PatternKind.ofName?_name (k : PatternKind) : ofName? k.name = some k := by
  cases k <;> decide

@[simp]
theorem StatementKind.ofName?_name (k : StatementKind) : ofName? k.name = some k := by
  cases k <;> decide

@[simp]
theorem DeclKind.ofName?_name (k : DeclKind) : ofName? k.name = some k := by
  cases k <;> decide

/-! ## Outcomes of parts -/

namespace Decoded

variable {α : Type}

@[simp]
theorem within_ok (step : Step) (a : α) : within step (.ok a) = .ok a := rfl

@[simp]
theorem within_eq_ok_iff {step : Step} {r : Decoded α} {a : α} : within step r = .ok a ↔ r = .ok a := by
  cases r with
  | error e => simp [within]
  | ok b => simp [within]

@[simp]
theorem fail_ne_ok {cause : DecodeCause} {a : α} : fail cause ≠ .ok a := by
  simp [fail]

end Decoded

namespace Decode

open Decoded

/-! ## The size of what is found -/

/-- What is found in an object is smaller than the object. -/
theorem sizeOf_find_lt_object (name : Text) (ms : List Member) :
    sizeOf (Json.find name ms) < sizeOf (Found.value (.object ms)) := by
  have := sizeOf_find_le name ms
  rw [Found.value.sizeOf_spec, Json.object.sizeOf_spec]
  omega

/-- An element is smaller than its array. -/
theorem sizeOf_value_lt_array {j : Json} {items : List Json} (h : j ∈ items) :
    sizeOf (Found.value j) < sizeOf (Found.value (.array items)) := by
  have := List.sizeOf_lt_of_mem h
  rw [Found.value.sizeOf_spec, Found.value.sizeOf_spec, Json.array.sizeOf_spec]
  omega

/-! ## Elements of arrays -/

/-- Reads elements one after the other, the first of which has index `i`. -/
def itemsWith {α : Type} (read : Found → Decoded α) (i : Nat) : List Json → Decoded (List α)
  | [] => .ok []
  | j :: rest => do
    let a ← within (.index i) (read (.value j))
    let as ← itemsWith read (i + 1) rest
    return a :: as

/-- Elements are read exactly if each of them is. -/
theorem itemsWith_eq_ok_iff {α : Type} {read : Found → Decoded α} {i : Nat} {items : List Json} {as : List α} :
    itemsWith read i items = .ok as ↔ List.Forall₂ (fun j a => read (.value j) = .ok a) items as := by
  induction items generalizing i as with
  | nil => simp [itemsWith, eq_comm]
  | cons j rest ih =>
    simp only [itemsWith, Outcome.bind_eq_ok_iff, within_eq_ok_iff, ih, Outcome.pure_eq_ok, Except.ok.injEq,
      List.forall₂_cons_left_iff]
    constructor
    · rintro ⟨a, hj, as', hrest, rfl⟩
      exact ⟨a, as', hj, hrest, rfl⟩
    · rintro ⟨a, as', hj, hrest, rfl⟩
      exact ⟨a, hj, as', hrest, rfl⟩

/-- A reader that goes through elements in this way is `itemsWith`. -/
theorem eq_itemsWith {α : Type} {f : Nat → List Json → Decoded (List α)} {read : Found → Decoded α}
    (nil : ∀ i, f i [] = .ok [])
    (cons : ∀ i j rest, f i (j :: rest) = do
      let a ← within (.index i) (read (.value j))
      let as ← f (i + 1) rest
      return a :: as) : ∀ (i : Nat) (items : List Json), f i items = itemsWith read i items
  | i, [] => nil i
  | i, j :: rest => by simp only [cons, itemsWith, eq_itemsWith nil cons (i + 1) rest]

/-- Reads an array whose elements are read one after the other. -/
def arrayWith {α : Type} (read : Found → Decoded α) : Found → Decoded (List α)
  | .value (.array items) => itemsWith read 0 items
  | found => fail (.expected .array found)

/-- What is no array is not read. -/
theorem arrayWith_of_no_array {α : Type} (read : Found → Decoded α) {found : Found}
    (h : ∀ items, found ≠ .value (.array items)) : arrayWith read found = fail (.expected .array found) := by
  unfold arrayWith
  split
  · rename_i items
    exact absurd rfl (h items)
  · rfl

/-- An array is read exactly if it is one and each of its elements is read. -/
theorem arrayWith_eq_ok_iff {α : Type} {read : Found → Decoded α} {found : Found} {as : List α} :
    arrayWith read found = .ok as ↔
      ∃ items, found = .value (.array items) ∧ List.Forall₂ (fun j a => read (.value j) = .ok a) items as := by
  unfold arrayWith
  split
  · simp [itemsWith_eq_ok_iff]
  · rename_i h
    simp only [fail_ne_ok, false_iff, not_exists, not_and]
    exact fun items e => absurd e (h items)

theorem params_eq (found : Found) : params found = arrayWith param found := by
  unfold params arrayWith
  split <;> simp only [eq_itemsWith (fun _ => paramItems.eq_1 _) (fun _ _ _ => paramItems.eq_2 _ _ _)]

theorem exprs_eq (found : Found) : exprs found = arrayWith expr found := by
  rw [exprs.eq_def, arrayWith.eq_def]
  split <;> simp only [eq_itemsWith (fun _ => exprItems.eq_1 _) (fun _ _ _ => exprItems.eq_2 _ _ _)]

theorem namedExprs_eq (found : Found) : namedExprs found = arrayWith namedExpr found := by
  rw [namedExprs.eq_def, arrayWith.eq_def]
  split <;> simp only [eq_itemsWith (fun _ => namedExprItems.eq_1 _) (fun _ _ _ => namedExprItems.eq_2 _ _ _)]

theorem statements_eq (found : Found) : statements found = arrayWith statement found := by
  rw [statements.eq_def, arrayWith.eq_def]
  split <;> simp only [eq_itemsWith (fun _ => statementItems.eq_1 _) (fun _ _ _ => statementItems.eq_2 _ _ _)]

theorem patterns_eq (found : Found) : patterns found = arrayWith pattern found := by
  rw [patterns.eq_def, arrayWith.eq_def]
  split <;> simp only [eq_itemsWith (fun _ => patternItems.eq_1 _) (fun _ _ _ => patternItems.eq_2 _ _ _)]

theorem namedPatterns_eq (found : Found) : namedPatterns found = arrayWith namedPattern found := by
  rw [namedPatterns.eq_def, arrayWith.eq_def]
  split <;> simp only [eq_itemsWith (fun _ => namedPatternItems.eq_1 _) (fun _ _ _ => namedPatternItems.eq_2 _ _ _)]

theorem decls_eq (found : Found) : decls found = arrayWith decl found := by
  unfold decls arrayWith
  split <;> simp only [eq_itemsWith (fun _ => declItems.eq_1 _) (fun _ _ _ => declItems.eq_2 _ _ _)]

/-- Arms are an array like any other, but not an empty one. -/
theorem arms_eq (found : Found) :
    arms found = match found with
      | .value (.array []) => fail .noArms
      | found => arrayWith arm found := by
  rw [arms.eq_def]
  split
  · rename_i items
    cases items with
    | nil => simp
    | cons j rest =>
      simp only [List.isEmpty_cons, arrayWith]
      rw [eq_itemsWith (fun _ => armItems.eq_1 _) (fun _ _ _ => armItems.eq_2 _ _ _)]
      simp
  · rename_i h
    split
    · exact absurd rfl (h [])
    · rw [arrayWith_of_no_array arm h]

end Decode

end ExprScript
