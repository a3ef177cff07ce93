import ExprScript.Proofs.Tree.Induction

/-!
# Texts that are written as they stand

`Expr.verbatim` and `Decl.verbatim` list the texts of a tree that a rendering takes over without looking at them: the
names of variables, constructors, record types, iterators and parameters, namespaces, and types. Keys and names of
fields are not among them, because they are quoted unless they are identifiers, and neither are the values of strings.
-/

namespace ExprScript

/-- The texts of a parameter that are written as they stand. -/
def Param.verbatim (p : Param) : List Text := p.name :: p.type.toList

mutual

/-- The texts of a pattern that are written as they stand. -/
def Pattern.verbatim : Pattern → List Text
  | .variable name => [name]
  | .constructor constructor args => constructor :: Pattern.allVerbatim args
  | .record fields => NamedPattern.allVerbatim fields
  | .list elements none => Pattern.allVerbatim elements
  | .list elements (some tail) => Pattern.allVerbatim elements ++ tail.verbatim
  | .alias name pattern => name :: pattern.verbatim
  | .or alternatives => Pattern.allVerbatim alternatives
  | .wildcard | .literal _ | .foreign _ => []

/-- The texts of patterns that are written as they stand. -/
def Pattern.allVerbatim : List Pattern → List Text
  | [] => []
  | p :: rest => p.verbatim ++ Pattern.allVerbatim rest

/-- The texts of the patterns of fields that are written as they stand. -/
def NamedPattern.allVerbatim : List NamedPattern → List Text
  | [] => []
  | ⟨_, pattern⟩ :: rest => pattern.verbatim ++ NamedPattern.allVerbatim rest

end

mutual

/-- The texts of an expression that are written as they stand. -/
def Expr.verbatim : Expr → List Text
  | .int _ | .string _ | .bool _ | .foreign _ => []
  | .list elements => Expr.allVerbatim elements
  | .record fields => NamedExpr.allVerbatim fields
  | .variable name => [name]
  | .qualified space name => space.toList ++ [name]
  | .binary _ left right => left.verbatim ++ right.verbatim
  | .unary _ operand => operand.verbatim
  | .call fn args => fn.verbatim ++ Expr.allVerbatim args
  | .construct constructor args => constructor :: Expr.allVerbatim args
  | .recordCreate recordType fields => recordType :: NamedExpr.allVerbatim fields
  | .recordUpdate target updates => target.verbatim ++ NamedExpr.allVerbatim updates
  | .field target _ => target.verbatim
  | .index target index => target.verbatim ++ index.verbatim
  | .ifThenElse condition yes no => condition.verbatim ++ (yes.verbatim ++ no.verbatim)
  | .letIn bindings body => bindings.map NamedExpr.name ++ (NamedExpr.allVerbatim bindings ++ body.verbatim)
  | .caseOf scrutinee arms => scrutinee.verbatim ++ Arm.allVerbatim arms
  | .lambda params body => params.flatMap Param.verbatim ++ body.verbatim
  | .tryCatch body handlers => body.verbatim ++ Arm.allVerbatim handlers
  | .doBlock statements result => Statement.allVerbatim statements ++ result.verbatim
  | .map collection iterator transform => iterator :: (collection.verbatim ++ transform.verbatim)
  | .filter collection iterator predicate => iterator :: (collection.verbatim ++ predicate.verbatim)
  | .fold collection initial accumulator iterator transform =>
    accumulator :: iterator :: (collection.verbatim ++ (initial.verbatim ++ transform.verbatim))
  | .annotate expr type => type :: expr.verbatim

/-- The texts of expressions that are written as they stand. -/
def Expr.allVerbatim : List Expr → List Text
  | [] => []
  | e :: rest => e.verbatim ++ Expr.allVerbatim rest

/-- The texts of named expressions that are written as they stand, apart from the names. -/
def NamedExpr.allVerbatim : List NamedExpr → List Text
  | [] => []
  | ⟨_, value⟩ :: rest => value.verbatim ++ NamedExpr.allVerbatim rest

/-- The texts of arms that are written as they stand. -/
def Arm.allVerbatim : List Arm → List Text
  | [] => []
  | ⟨pattern, none, body⟩ :: rest => pattern.verbatim ++ body.verbatim ++ Arm.allVerbatim rest
  | ⟨pattern, some guard, body⟩ :: rest =>
    pattern.verbatim ++ guard.verbatim ++ body.verbatim ++ Arm.allVerbatim rest

/-- The texts of statements that are written as they stand. -/
def Statement.allVerbatim : List Statement → List Text
  | [] => []
  | .bind name value :: rest => name :: value.verbatim ++ Statement.allVerbatim rest
  | .effect expr :: rest => expr.verbatim ++ Statement.allVerbatim rest
  | .foreign _ :: rest => Statement.allVerbatim rest

end

/-- The texts of a declaration that are written as they stand. -/
def Decl.verbatim : Decl → List Text
  | .const name type value _ => name :: type.toList ++ value.verbatim
  | .function name params returnType body _ =>
    name :: params.flatMap Param.verbatim ++ returnType.toList ++ body.verbatim
  | .foreign _ => []

/-! ## Part by part -/

theorem Pattern.allVerbatim_eq (ps : List Pattern) : Pattern.allVerbatim ps = ps.flatMap Pattern.verbatim := by
  induction ps with
  | nil => rw [Pattern.allVerbatim, List.flatMap_nil]
  | cons p rest ih => rw [Pattern.allVerbatim, ih, List.flatMap_cons]

theorem Pattern.verbatim_list (elements : List Pattern) (tail : Option Pattern) :
    (Pattern.list elements tail).verbatim =
      elements.flatMap Pattern.verbatim ++ tail.toList.flatMap Pattern.verbatim := by
  cases tail <;> simp [Pattern.verbatim, Pattern.allVerbatim_eq]

theorem NamedPattern.allVerbatim_eq (fields : List NamedPattern) :
    NamedPattern.allVerbatim fields = fields.flatMap fun f => f.pattern.verbatim := by
  induction fields with
  | nil => rw [NamedPattern.allVerbatim, List.flatMap_nil]
  | cons f rest ih =>
    obtain ⟨name, pattern⟩ := f
    rw [NamedPattern.allVerbatim, ih, List.flatMap_cons]

theorem Expr.allVerbatim_eq (es : List Expr) : Expr.allVerbatim es = es.flatMap Expr.verbatim := by
  induction es with
  | nil => rw [Expr.allVerbatim, List.flatMap_nil]
  | cons e rest ih => rw [Expr.allVerbatim, ih, List.flatMap_cons]

theorem NamedExpr.allVerbatim_eq (fields : List NamedExpr) :
    NamedExpr.allVerbatim fields = fields.flatMap fun f => f.value.verbatim := by
  induction fields with
  | nil => rw [NamedExpr.allVerbatim, List.flatMap_nil]
  | cons f rest ih =>
    obtain ⟨name, value⟩ := f
    rw [NamedExpr.allVerbatim, ih, List.flatMap_cons]

theorem Arm.allVerbatim_eq (arms : List Arm) : Arm.allVerbatim arms = arms.flatMap fun a =>
    a.pattern.verbatim ++ a.guard.toList.flatMap Expr.verbatim ++ a.body.verbatim := by
  induction arms with
  | nil => rw [Arm.allVerbatim, List.flatMap_nil]
  | cons a rest ih =>
    obtain ⟨pattern, guard, body⟩ := a
    cases guard <;> simp [Arm.allVerbatim, ih]

end ExprScript
