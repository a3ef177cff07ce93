import ExprScript.Proofs.Chain.Reachable

/-!
# Or-patterns in a tree

- `Pattern.choices`, `Expr.choices` and `Module.choices` list the alternatives of every or-pattern that stands in a
  tree, at any depth. Arms that cannot be reached are left out;
- `IsInnermost` says of alternatives that they bind variables, and that no or-pattern inside them does;
- `FirstOccurrences` says that names are listed without repetition, in the order in which they first occur, and
  `firstOccurrences_eraseDups` that erasing duplicates does so.
-/

namespace ExprScript

mutual

/-- The alternatives of the or-patterns in a pattern. -/
def Pattern.choices : Pattern → List (List Pattern)
  | .constructor _ args => Pattern.allChoices args
  | .record fields => NamedPattern.allChoices fields
  | .list elements none => Pattern.allChoices elements
  | .list elements (some tail) => Pattern.allChoices elements ++ tail.choices
  | .alias _ pattern => pattern.choices
  | .or alternatives => alternatives :: Pattern.allChoices alternatives
  | .wildcard | .variable _ | .literal _ | .foreign _ => []

/-- The alternatives of the or-patterns in patterns. -/
def Pattern.allChoices : List Pattern → List (List Pattern)
  | [] => []
  | p :: rest => p.choices ++ Pattern.allChoices rest

/-- The alternatives of the or-patterns in the patterns of fields. -/
def NamedPattern.allChoices : List NamedPattern → List (List Pattern)
  | [] => []
  | ⟨_, pattern⟩ :: rest => pattern.choices ++ NamedPattern.allChoices rest

end

mutual

/-- The alternatives of the or-patterns in an expression that can be reached. -/
def Expr.choices : Expr → List (List Pattern)
  | .int _ | .string _ | .bool _ | .variable _ | .qualified _ _ | .foreign _ => []
  | .list elements => Expr.allChoices elements
  | .record fields => NamedExpr.allChoices fields
  | .binary _ left right => left.choices ++ right.choices
  | .unary _ operand => operand.choices
  | .call fn args => fn.choices ++ Expr.allChoices args
  | .construct _ args => Expr.allChoices args
  | .recordCreate _ fields => NamedExpr.allChoices fields
  | .recordUpdate target updates => target.choices ++ NamedExpr.allChoices updates
  | .field target _ => target.choices
  | .index target index => target.choices ++ index.choices
  | .ifThenElse condition yes no => condition.choices ++ (yes.choices ++ no.choices)
  | .letIn bindings body => NamedExpr.allChoices bindings ++ body.choices
  | .caseOf scrutinee arms => scrutinee.choices ++ Arm.allChoices arms
  | .lambda _ body => body.choices
  | .tryCatch body handlers => body.choices ++ Arm.allChoices handlers
  | .doBlock statements result => Statement.allChoices statements ++ result.choices
  | .map collection _ transform => collection.choices ++ transform.choices
  | .filter collection _ predicate => collection.choices ++ predicate.choices
  | .fold collection initial _ _ transform => collection.choices ++ (transform.choices ++ initial.choices)
  | .annotate expr _ => expr.choices

/-- The alternatives of the or-patterns in expressions. -/
def Expr.allChoices : List Expr → List (List Pattern)
  | [] => []
  | e :: rest => e.choices ++ Expr.allChoices rest

/-- The alternatives of the or-patterns in named expressions. -/
def NamedExpr.allChoices : List NamedExpr → List (List Pattern)
  | [] => []
  | ⟨_, value⟩ :: rest => value.choices ++ NamedExpr.allChoices rest

/-- The alternatives of the or-patterns in arms, up to the first arm that takes every value. -/
def Arm.allChoices : List Arm → List (List Pattern)
  | [] => []
  | ⟨pattern, none, body⟩ :: rest =>
    (pattern.choices ++ body.choices) ++ if pattern.isIrrefutable then [] else Arm.allChoices rest
  | ⟨pattern, some guard, body⟩ :: rest =>
    (pattern.choices ++ (guard.choices ++ body.choices)) ++ Arm.allChoices rest

/-- The alternatives of the or-patterns in statements. -/
def Statement.allChoices : List Statement → List (List Pattern)
  | [] => []
  | .bind _ value :: rest => value.choices ++ Statement.allChoices rest
  | .effect expr :: rest => expr.choices ++ Statement.allChoices rest
  | .foreign _ :: rest => Statement.allChoices rest

end

/-- The alternatives of the or-patterns in a declaration that can be reached. -/
def Decl.choices : Decl → List (List Pattern)
  | .const _ _ value _ => value.choices
  | .function _ _ _ body _ => body.choices
  | .foreign _ => []

/-- The alternatives of the or-patterns in a module that can be reached. -/
def Module.choices (m : Module) : List (List Pattern) := m.decls.flatMap Decl.choices

/-! ## Part by part -/

theorem Pattern.allChoices_eq (ps : List Pattern) : Pattern.allChoices ps = ps.flatMap Pattern.choices := by
  induction ps with
  | nil => rw [Pattern.allChoices, List.flatMap_nil]
  | cons p rest ih => rw [Pattern.allChoices, ih, List.flatMap_cons]

theorem NamedPattern.allChoices_eq (fields : List NamedPattern) :
    NamedPattern.allChoices fields = fields.flatMap fun f => f.pattern.choices := by
  induction fields with
  | nil => rw [NamedPattern.allChoices, List.flatMap_nil]
  | cons f rest ih =>
    obtain ⟨name, pattern⟩ := f
    rw [NamedPattern.allChoices, ih, List.flatMap_cons]

/-- The alternatives of the or-patterns in one arm. -/
def Arm.choices (a : Arm) : List (List Pattern) :=
  a.pattern.choices ++ (a.guard.elim [] Expr.choices ++ a.body.choices)

theorem Arm.allChoices_eq (arms : List Arm) : Arm.allChoices arms = (Arm.reachable arms).flatMap Arm.choices := by
  induction arms with
  | nil => rw [Arm.allChoices, Arm.reachable, List.flatMap_nil]
  | cons a rest ih =>
    obtain ⟨pattern, guard, body⟩ := a
    cases guard with
    | none =>
      rw [Arm.allChoices, Arm.reachable, ih]
      cases irrefutable : pattern.isIrrefutable <;> simp [Arm.isCatchAll, irrefutable, Arm.choices]
    | some g => simp [Arm.allChoices, Arm.reachable, ih, Arm.isCatchAll, Arm.choices]

/-! ## Alternatives that bind -/

/-- Alternatives bind variables, but no or-pattern inside them does. -/
def IsInnermost (alternatives : List Pattern) : Prop :=
  Pattern.allVars alternatives ≠ [] ∧ ∀ inner ∈ Pattern.allChoices alternatives, Pattern.allVars inner = []

/-- Names are listed without repetition, in the order in which they first occur among others. -/
structure FirstOccurrences (names all : List Text) : Prop where
  mem_iff (name : Text) : name ∈ names ↔ name ∈ all
  ordered : names.Pairwise fun a b => all.idxOf a < all.idxOf b

/-- Leaving out others does not change which of two names occurs first. -/
theorem idxOf_filter_lt {keep : Text → Bool} {all : List Text} {a b : Text} (ha : keep a = true) (hb : keep b = true)
    (h : (all.filter keep).idxOf a < (all.filter keep).idxOf b) : all.idxOf a < all.idxOf b := by
  induction all with
  | nil => simp at h
  | cons c rest ih =>
    by_cases kept : keep c = true
    · rw [List.filter_cons_of_pos kept] at h
      have hcb : c ≠ b := by
        rintro rfl
        simp at h
      by_cases hca : c = a
      · subst hca
        rw [List.idxOf_cons_self, List.idxOf_cons_ne _ hcb]
        omega
      · rw [List.idxOf_cons_ne _ hca, List.idxOf_cons_ne _ hcb] at h ⊢
        have := ih (by omega)
        omega
    · rw [List.filter_cons_of_neg kept] at h
      have hca : c ≠ a := fun e => kept (e ▸ ha)
      have hcb : c ≠ b := fun e => kept (e ▸ hb)
      have := ih h
      rw [List.idxOf_cons_ne _ hca, List.idxOf_cons_ne _ hcb]
      omega

/-- Erasing duplicates keeps the first occurrences. -/
theorem firstOccurrences_eraseDups (all : List Text) : FirstOccurrences all.eraseDups all where
  mem_iff name := List.mem_eraseDups
  ordered := by
    induction hn : all.length using Nat.strongRecOn generalizing all with
    | ind n ih =>
      cases all with
      | nil => simp
      | cons a rest =>
        have shorter : (rest.filter fun b => !b == a).length < n := by
          have := List.length_filter_le (fun b => !b == a) rest
          simp at hn; omega
        rw [List.eraseDups_cons]
        refine List.pairwise_cons.mpr ⟨fun b mem => ?_, (ih _ shorter _ rfl).imp_of_mem fun {b c} hb hc lt => ?_⟩
        · have other : b ≠ a := by simpa using (List.mem_filter.mp (List.mem_eraseDups.mp mem)).2
          rw [List.idxOf_cons_self, List.idxOf_cons_ne _ other.symm]
          omega
        · have hb := (List.mem_filter.mp (List.mem_eraseDups.mp hb)).2
          have hc := (List.mem_filter.mp (List.mem_eraseDups.mp hc)).2
          have := idxOf_filter_lt hb hc lt
          have hba : a ≠ b := by rintro rfl; simp at hb
          have hca : a ≠ c := by rintro rfl; simp at hc
          rw [List.idxOf_cons_ne _ hba, List.idxOf_cons_ne _ hca]
          omega

end ExprScript
