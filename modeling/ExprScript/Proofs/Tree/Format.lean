import ExprScript.Json.Basic
import ExprScript.Proofs.Tree.Decode
import ExprScript.Tree.Kind
import Mathlib.Data.List.Nodup
import Mathlib.Logic.Relation

/-!
# Which members a node reads

The JSON form of trees as a table, apart from the readers that follow it.

- `Role` is what a value is read as, and `Slot` a member that is read in some role. `Role.slots` are the members that an
  object is read for; where an object names its kind, they depend on the kind;
- `Edit r j j'` is one change of a value in the role `r` that should make no difference: members trade places, a member
  that is not read comes in, an optional member is written as `null` and not left out, or there is such a change in a
  part;
- `Unseen r j j'` says that two values differ by such changes only, in either direction.

No object is read twice for one member (`Role.slots_unique`).
-/

namespace ExprScript

/-! ## The table -/

/-- What a value is read as. -/
inductive Role where
  | expr | namedExpr | arm | param | statement | pattern | namedPattern | decl | module
  /-- An array, whose elements are all read as one thing. -/
  | listOf (element : Role)
  /-- A value in which no member is looked for. -/
  | plain
deriving DecidableEq

/-- A member that is read. -/
structure Slot where
  name : Text
  role : Role
  /-- The member may be left out, and `null` stands for leaving it out. -/
  optional : Bool
deriving DecidableEq

namespace Slot

/-- A member that has to be there. -/
def required (name : Text) (role : Role) : Slot := ⟨name, role, false⟩

/-- A member that may be left out. -/
def orNull (name : Text) (role : Role) : Slot := ⟨name, role, true⟩

end Slot

/-- The members that an expression of a kind is read for. -/
def ExprKind.slots : ExprKind → List Slot
  | .int | .string | .bool => [.required "value" .plain]
  | .list => [.required "elements" (.listOf .expr)]
  | .record => [.required "fields" (.listOf .namedExpr)]
  | .variable => [.required "name" .plain]
  | .qualified => [.orNull "namespace" .plain, .required "name" .plain]
  | .binary => [.required "op" .plain, .required "left" .expr, .required "right" .expr]
  | .unary => [.required "op" .plain, .required "operand" .expr]
  | .call => [.required "fn" .expr, .required "args" (.listOf .expr)]
  | .construct => [.required "constructor" .plain, .required "args" (.listOf .expr)]
  | .recordCreate => [.required "recordType" .plain, .required "fields" (.listOf .namedExpr)]
  | .recordUpdate => [.required "target" .expr, .required "updates" (.listOf .namedExpr)]
  | .field => [.required "target" .expr, .required "name" .plain]
  | .index => [.required "target" .expr, .required "index" .expr]
  | .ifThenElse => [.required "condition" .expr, .required "then" .expr, .required "else" .expr]
  | .letIn => [.required "bindings" (.listOf .namedExpr), .required "body" .expr]
  | .caseOf => [.required "scrutinee" .expr, .required "arms" (.listOf .arm)]
  | .lambda => [.required "params" (.listOf .param), .required "body" .expr]
  | .tryCatch => [.required "body" .expr, .required "handlers" (.listOf .arm)]
  | .doBlock => [.required "statements" (.listOf .statement), .required "result" .expr]
  | .map => [.required "collection" .expr, .required "iterator" .plain, .required "transform" .expr]
  | .filter => [.required "collection" .expr, .required "iterator" .plain, .required "predicate" .expr]
  | .fold => [.required "collection" .expr, .required "initial" .expr, .required "accumulator" .plain,
      .required "iterator" .plain, .required "transform" .expr]
  | .annotate => [.required "expr" .expr, .required "annotation" .plain]

/-- The members that a pattern of a kind is read for. -/
def PatternKind.slots : PatternKind → List Slot
  | .wildcard => []
  | .variable => [.required "name" .plain]
  | .literal => [.required "value" .expr]
  | .constructor => [.required "constructor" .plain, .required "args" (.listOf .pattern)]
  | .record => [.required "fields" (.listOf .namedPattern)]
  | .list => [.required "elements" (.listOf .pattern), .orNull "tail" .pattern]
  | .alias => [.required "name" .plain, .required "pattern" .pattern]
  | .or => [.required "alternatives" (.listOf .pattern)]

/-- The members that a statement of a kind is read for. -/
def StatementKind.slots : StatementKind → List Slot
  | .bind => [.required "name" .plain, .required "value" .expr]
  | .effect => [.required "expr" .expr]

/-- The members that a declaration of a kind is read for, apart from whether it is exported. -/
def DeclKind.slots : DeclKind → List Slot
  | .const => [.required "name" .plain, .orNull "type" .plain, .required "value" .expr]
  | .function => [.required "name" .plain, .required "params" (.listOf .param), .orNull "returnType" .plain,
      .required "body" .expr]

/-- The kind that an object names. -/
def kindName? (ms : List Member) : Option Text :=
  match Json.find "kind" ms with
  | .value (.string name) => some name
  | _ => none

namespace Role

/-- The members that an object is read for. One that does not name its kind is read for nothing else, and one of a kind
that is not known is, as a declaration, still read for whether it is exported. -/
def slots : Role → List Member → List Slot
  | .expr, ms => .required "kind" .plain :: ((kindName? ms).bind ExprKind.ofName?).elim [] ExprKind.slots
  | .pattern, ms => .required "kind" .plain :: ((kindName? ms).bind PatternKind.ofName?).elim [] PatternKind.slots
  | .statement, ms => .required "kind" .plain :: ((kindName? ms).bind StatementKind.ofName?).elim [] StatementKind.slots
  | .decl, ms => .required "kind" .plain :: (kindName? ms).elim [] fun kind =>
      .orNull "exported" .plain :: (DeclKind.ofName? kind).elim [] DeclKind.slots
  | .namedExpr, _ => [.required "name" .plain, .required "value" .expr]
  | .namedPattern, _ => [.required "name" .plain, .required "pattern" .pattern]
  | .arm, _ => [.required "pattern" .pattern, .required "body" .expr, .orNull "guard" .expr]
  | .param, _ => [.required "name" .plain, .orNull "type" .plain]
  | .module, _ => [.required "decls" (.listOf .decl)]
  | .listOf _, _ | .plain, _ => []

/-- What the elements of an array are read as. Where no array belongs, they are not looked into. -/
def element : Role → Role
  | .listOf r => r
  | _ => .plain

end Role

/-! ## Changes that are not seen -/

/-- One change of a value that is read in a role, which should make no difference to the reader. -/
inductive Edit : Role → Json → Json → Prop
  /-- The members of an object come in another order. -/
  | reorder {r : Role} {ms ms' : List Member} : (ms.map Member.name).Nodup → ms.Perm ms' →
      Edit r (.object ms) (.object ms')
  /-- An object gets a member that it is not read for. -/
  | add {r : Role} {front back : List Member} {m : Member} :
      (∀ slot ∈ r.slots (front ++ back), slot.name ≠ m.name) →
      Edit r (.object (front ++ back)) (.object (front ++ m :: back))
  /-- An optional member that was left out is written as `null`. -/
  | null {r : Role} {front back : List Member} {slot : Slot} : slot ∈ r.slots (front ++ back) → slot.optional = true →
      slot.name ∉ (front ++ back).map Member.name →
      Edit r (.object (front ++ back)) (.object (front ++ ⟨slot.name, .null⟩ :: back))
  /-- There is a change in a member, in the role in which it is read. -/
  | member {r : Role} {front back : List Member} {slot : Slot} {j j' : Json} :
      slot ∈ r.slots (front ++ ⟨slot.name, j⟩ :: back) → Edit slot.role j j' →
      Edit r (.object (front ++ ⟨slot.name, j⟩ :: back)) (.object (front ++ ⟨slot.name, j'⟩ :: back))
  /-- There is a change in an element of an array. -/
  | element {r : Role} {front back : List Json} {j j' : Json} : Edit r.element j j' →
      Edit r (.array (front ++ j :: back)) (.array (front ++ j' :: back))

/-- Two values that are read in a role differ only in what should make no difference. -/
def Unseen (r : Role) : Json → Json → Prop := Relation.EqvGen (Edit r)

/-! ## Facts about the table -/

/-- No name stands twice in a table, and `constructor`, to which every object answers, is in none an optional
member. -/
def Slot.IsTable (slots : List Slot) : Prop :=
  (slots.map Slot.name).Nodup ∧ ∀ slot ∈ slots, slot.optional = true → slot.name ≠ "constructor"

instance (slots : List Slot) : Decidable (Slot.IsTable slots) := instDecidableAnd

theorem Role.isTable_slots (r : Role) (ms : List Member) : Slot.IsTable (r.slots ms) := by
  cases r with
  | expr =>
    rw [slots]
    cases (kindName? ms).bind ExprKind.ofName? with
    | none => decide
    | some k => cases k <;> decide
  | pattern =>
    rw [slots]
    cases (kindName? ms).bind PatternKind.ofName? with
    | none => decide
    | some k => cases k <;> decide
  | statement =>
    rw [slots]
    cases (kindName? ms).bind StatementKind.ofName? with
    | none => decide
    | some k => cases k <;> decide
  | decl =>
    rw [slots]
    cases kindName? ms with
    | none => decide
    | some name =>
      rw [Option.elim_some]
      cases DeclKind.ofName? name with
      | none => decide
      | some k => cases k <;> decide
  | namedExpr | namedPattern | arm | param | module | listOf | plain =>
    rw [slots]
    decide

/-- A member is read in one role only. -/
theorem Role.slots_unique {r : Role} {ms : List Member} {slot slot' : Slot} (mem : slot ∈ r.slots ms)
    (mem' : slot' ∈ r.slots ms) (same : slot.name = slot'.name) : slot = slot' :=
  List.inj_on_of_nodup_map (r.isTable_slots ms).1 mem mem' same

/-! ## Looking members up -/

namespace Json

variable {name : Text}

theorem get?_append (front back : List Member) :
    get? name (front ++ back) = (get? name front).or (get? name back) := by
  induction front with
  | nil => rfl
  | cons m rest ih =>
    rw [List.cons_append, get?, get?, ih]
    split <;> rfl

theorem get?_eq_none_iff {ms : List Member} : get? name ms = none ↔ name ∉ ms.map Member.name := by
  induction ms with
  | nil => simp [get?]
  | cons m rest ih =>
    rw [get?, List.map_cons, List.mem_cons, not_or, ← ih]
    split
    · rename_i same
      simp [same]
    · rename_i other
      simp [Ne.symm other]

/-- A member is found in the same way wherever it stands, as long as its name is not repeated. -/
theorem get?_perm {ms ms' : List Member} (distinct : (ms.map Member.name).Nodup) (perm : ms.Perm ms') :
    get? name ms = get? name ms' := by
  induction perm with
  | nil => rfl
  | cons m _ ih =>
    rw [List.map_cons, List.nodup_cons] at distinct
    rw [get?, get?, ih distinct.2]
  | swap a b rest =>
    rw [List.map_cons, List.map_cons, List.nodup_cons] at distinct
    have ne : b.name ≠ a.name := fun same => distinct.1 (same ▸ List.mem_cons_self)
    simp only [get?]
    split
    · rename_i same
      rw [if_neg fun same' => ne (same.trans same'.symm)]
    · rfl
  | trans perm _ ih ih' =>
    exact (ih distinct).trans (ih' ((perm.map Member.name).nodup_iff.mp distinct))

/-- What is found depends on the value of the member only. -/
theorem find_congr {ms ms' : List Member} (h : get? name ms = get? name ms') : find name ms = find name ms' := by
  unfold find
  rw [h]

/-- A member with another name is not found. -/
theorem find_insert {front back : List Member} {m : Member} (other : name ≠ m.name) :
    find name (front ++ back) = find name (front ++ m :: back) := by
  apply find_congr
  rw [get?_append, get?_append, get?, if_neg (Ne.symm other)]

end Json

end ExprScript
