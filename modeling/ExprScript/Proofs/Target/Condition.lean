import ExprScript.Number.Shortest
import ExprScript.Proofs.Outcome
import ExprScript.Proofs.Target.Value
import ExprScript.Text.Quoted

/-!
# Conditions of the target language

The boolean expressions that patterns are compiled to, with their text and what comes of evaluating them.

- `Place` is a variable with accesses after it;
- `Atom` is one test on a place;
- `Operand` is what may stand between `&&` or `||`: an atom, `true`, or a group in parentheses. So a group is the only
  place where an `||` can be;
- a `Condition` is a conjunction of operands.

Evaluation goes from left to right, stops as soon as the outcome is known, and faults if a place cannot be read.
`Decides s c P` says that the condition `c` is evaluated without a fault and holds exactly if `P` does.
-/

namespace ExprScript.Target

/-- An identifier. -/
structure Identifier where
  name : Text
  valid : name.isIdentifier = true

/-! ## Places -/

/-- A variable with accesses after it. -/
inductive Place where
  | var (name : Identifier)
  | property (of : Place) (name : Text)
  | element (of : Place) (i : Nat)
  /-- The rest of a list from an index on. -/
  | slice (of : Place) (start : Nat)

namespace Place

/-- The text of a place. A property is accessed by a quoted name if the name is no identifier. -/
def text : Place → Text
  | .var name => name.name
  | .property of name =>
    if name.isIdentifier then of.text ++ "." ++ name else of.text ++ "[" ++ Quoted.encode name ++ "]"
  | .element of i => of.text ++ "[" ++ Text.ofNat i ++ "]"
  | .slice of start => of.text ++ ".slice(" ++ Text.ofNat start ++ ")"

/-- Reads a place. -/
def eval (s : State) : Place → Reading Value
  | .var name => .ok (s.lookup name.name)
  | .property of name => do s.readProperty (← of.eval s) name
  | .element of i => do s.readElement (← of.eval s) i
  | .slice of start => do s.readSlice (← of.eval s) start

end Place

/-! ## Atoms -/

/-- The text of a literal. -/
def Literal.text : Literal → Text
  | .number x => x.text
  | .string t => Quoted.encode t
  | .bool b => if b then "true" else "false"

/-- One test on a place. -/
inductive Atom where
  | equals (place : Place) (literal : Literal)
  | instanceOf (place : Place) (constructor : Identifier)
  | isArray (place : Place)
  | notNull (place : Place)
  /-- A list has exactly so many elements. -/
  | lengthIs (place : Place) (count : Nat)
  /-- A list has at least so many elements. -/
  | lengthAtLeast (place : Place) (count : Nat)

namespace Atom

/-- The text of a test. -/
def text : Atom → Text
  | .equals place literal => place.text ++ " === " ++ literal.text
  | .instanceOf place constructor => place.text ++ " instanceof " ++ constructor.name
  | .isArray place => "Array.isArray(" ++ place.text ++ ")"
  | .notNull place => place.text ++ " != null"
  | .lengthIs place count => place.text ++ ".length" ++ " === " ++ Text.ofNat count
  | .lengthAtLeast place count => place.text ++ ".length" ++ " >= " ++ Text.ofNat count

/-- Evaluates a test. -/
def eval (s : State) : Atom → Reading Bool
  | .equals place literal => return (← place.eval s).equals literal
  | .instanceOf place constructor => return s.instanceOf (← place.eval s) constructor.name
  | .isArray place => return (s.elements? (← place.eval s)).isSome
  | .notNull place => return !(← place.eval s).isNullish
  | .lengthIs place count => return (← s.readElements (← place.eval s)).length == count
  | .lengthAtLeast place count => return decide (count ≤ (← s.readElements (← place.eval s)).length)

end Atom

/-! ## Operands and conditions -/

/-- What may stand between `&&` or `||`. -/
inductive Operand where
  | always
  | atom (a : Atom)
  /-- A conjunction in parentheses. -/
  | all (operands : List Operand)
  /-- A disjunction in parentheses. -/
  | any (operands : List Operand)

mutual

/-- The text of an operand. -/
def Operand.text : Operand → Text
  | .always => "true"
  | .atom a => a.text
  | .all operands => "(" ++ Text.join " && " (Operand.texts operands) ++ ")"
  | .any operands => "(" ++ Text.join " || " (Operand.texts operands) ++ ")"

/-- The texts of operands. -/
def Operand.texts : List Operand → List Text
  | [] => []
  | o :: rest => o.text :: Operand.texts rest

end

mutual

/-- Evaluates an operand. -/
def Operand.eval (s : State) : Operand → Reading Bool
  | .always => .ok true
  | .atom a => a.eval s
  | .all operands => Operand.evalAll s operands
  | .any operands => Operand.evalAny s operands

/-- Evaluates a conjunction, up to the first operand that is false. -/
def Operand.evalAll (s : State) : List Operand → Reading Bool
  | [] => .ok true
  | o :: rest => do if ← o.eval s then Operand.evalAll s rest else return false

/-- Evaluates a disjunction, up to the first operand that is true. -/
def Operand.evalAny (s : State) : List Operand → Reading Bool
  | [] => .ok false
  | o :: rest => do if ← o.eval s then return true else Operand.evalAny s rest

end

/-- A conjunction of operands. -/
abbrev Condition := List Operand

namespace Condition

/-- The text of a condition. -/
def text (c : Condition) : Text := Text.join " && " (c.map Operand.text)

/-- Evaluates a condition. -/
def eval (s : State) (c : Condition) : Reading Bool := Operand.evalAll s c

end Condition

mutual

/-- Whether no group is empty, so that an operand is written as an expression. -/
def Operand.isProper : Operand → Bool
  | .always | .atom _ => true
  | .all operands | .any operands => !operands.isEmpty && Operand.allProper operands

/-- Whether operands are proper. -/
def Operand.allProper : List Operand → Bool
  | [] => true
  | o :: rest => o.isProper && Operand.allProper rest

end

/-- Whether a condition has an operand, and only proper ones. -/
def Condition.isProper (c : Condition) : Bool := !c.isEmpty && Operand.allProper c

theorem Operand.allProper_iff {os : List Operand} : Operand.allProper os = true ↔ ∀ o ∈ os, o.isProper = true := by
  induction os with
  | nil => simp [Operand.allProper]
  | cons o rest ih => simp [Operand.allProper, ih]

theorem Condition.isProper_iff {c : Condition} :
    c.isProper = true ↔ c ≠ [] ∧ ∀ o ∈ c, Operand.isProper o = true := by
  simp [Condition.isProper, Operand.allProper_iff]

/-- Proper conditions, run together, are proper. -/
theorem Condition.isProper_flatten {cs : List Condition} (nonempty : cs ≠ [])
    (h : ∀ c ∈ cs, Condition.isProper c = true) : Condition.isProper cs.flatten = true := by
  simp only [Condition.isProper_iff] at h ⊢
  constructor
  · obtain ⟨c, mem⟩ := List.exists_mem_of_ne_nil cs nonempty
    exact fun empty => (h c mem).1 (List.flatten_eq_nil_iff.mp empty c mem)
  · intro o mem
    obtain ⟨c, hc, ho⟩ := List.mem_flatten.mp mem
    exact (h c hc).2 o ho

/-- Conditions as alternatives, each in parentheses, and all of them if there are several. -/
def Operand.group : List Condition → Operand
  | [c] => .all c
  | cs => .any (cs.map .all)

/-- Proper conditions make a proper group. -/
theorem Operand.isProper_group {cs : List Condition} (nonempty : cs ≠ [])
    (h : ∀ c ∈ cs, Condition.isProper c = true) : (Operand.group cs).isProper = true := by
  have each : ∀ c ∈ cs, (Operand.all c).isProper = true := fun c mem => by
    rw [Operand.isProper]
    exact h c mem
  unfold Operand.group
  split
  · exact each _ (by simp)
  · simpa [Operand.isProper, nonempty, Operand.allProper_iff] using each

theorem Operand.texts_eq (operands : List Operand) : Operand.texts operands = operands.map Operand.text := by
  induction operands with
  | nil => rw [Operand.texts, List.map_nil]
  | cons o rest ih => rw [Operand.texts, ih, List.map_cons]

theorem Operand.text_all (c : Condition) : (Operand.all c).text = "(" ++ Condition.text c ++ ")" := by
  rw [Operand.text, Operand.texts_eq, Condition.text]

/-- The text of alternatives. -/
def groupText : List Text → Text
  | [t] => "(" ++ t ++ ")"
  | ts => "(" ++ Text.join " || " (ts.map fun t => "(" ++ t ++ ")") ++ ")"

theorem Operand.texts_map_all (cs : List Condition) :
    Operand.texts (cs.map .all) = (cs.map Condition.text).map fun t : Text => "(" ++ t ++ ")" := by
  induction cs with
  | nil => rfl
  | cons c rest ih => rw [List.map_cons, Operand.texts, ih, Operand.text_all, List.map_cons, List.map_cons]

/-- A group is written as the group of the texts of its alternatives. -/
theorem Operand.text_group : ∀ cs : List Condition, (Operand.group cs).text = groupText (cs.map Condition.text)
  | [] => by simp [Operand.group, Operand.text, Operand.texts, groupText]
  | [c] => by rw [Operand.group, Operand.text_all, List.map_singleton, groupText]
  | c :: c' :: cs => by
    show (Operand.any ((c :: c' :: cs).map .all)).text = _
    rw [Operand.text, Operand.texts_map_all]
    rfl

/-! ## Evaluation in steps -/

section Eval

variable {s : State}

@[simp]
theorem Condition.eval_nil : Condition.eval s [] = .ok true := by
  rw [Condition.eval, Operand.evalAll]

theorem Condition.eval_cons (o : Operand) (c : Condition) :
    Condition.eval s (o :: c) = do if ← o.eval s then Condition.eval s c else return false := by
  rw [Condition.eval, Operand.evalAll]
  rfl

/-- A condition goes on with what follows if it holds. -/
theorem Condition.eval_append (c d : Condition) :
    Condition.eval s (c ++ d) = do if ← Condition.eval s c then Condition.eval s d else return false := by
  induction c with
  | nil => simp
  | cons o rest ih =>
    simp only [List.cons_append, Condition.eval_cons, ih]
    cases o.eval s with
    | error e => rfl
    | ok b => cases b <;> simp

theorem Operand.evalAny_nil : Operand.evalAny s [] = .ok false := by
  rw [Operand.evalAny]

theorem Operand.evalAny_cons (c : Condition) (os : List Operand) :
    Operand.evalAny s (.all c :: os) = (do if ← Condition.eval s c then return true else Operand.evalAny s os) := by
  rw [Operand.evalAny, Operand.eval]
  rfl

/-- A group is evaluated as its alternatives, be it only one. -/
theorem Operand.eval_group (cs : List Condition) : (Operand.group cs).eval s = Operand.evalAny s (cs.map .all) := by
  unfold Operand.group
  split
  · rename_i c
    rw [Operand.eval, List.map_singleton, Operand.evalAny_cons, Operand.evalAny_nil, ← Condition.eval]
    cases Condition.eval s c with
    | error e => rfl
    | ok b => cases b <;> rfl
  · rw [Operand.eval]

end Eval

/-! ## Deciding -/

/-- A condition is evaluated without a fault, and holds exactly if `P` does. -/
def Decides (s : State) (c : Condition) (P : Prop) : Prop := ∃ b, Condition.eval s c = .ok b ∧ (b = true ↔ P)

namespace Decides

variable {s : State} {c d : Condition} {P Q : Prop}

theorem congr (h : Decides s c P) (same : P ↔ Q) : Decides s c Q := by
  obtain ⟨b, run, iff⟩ := h
  exact ⟨b, run, iff.trans same⟩

theorem always : Decides s [.always] True := ⟨true, by simp [Condition.eval_cons, Operand.eval], by simp⟩

theorem atom {a : Atom} {b : Bool} (run : a.eval s = .ok b) : Decides s [.atom a] (b = true) := by
  refine ⟨b, ?_, Iff.rfl⟩
  rw [Condition.eval_cons, Operand.eval, run]
  cases b <;> rfl

/-- What follows need only be evaluated without a fault if the condition before it holds. -/
theorem append (first : Decides s c P) (rest : P → Decides s d Q) : Decides s (c ++ d) (P ∧ Q) := by
  obtain ⟨b, run, iff⟩ := first
  rw [Decides, Condition.eval_append, run]
  cases b with
  | false => exact ⟨false, rfl, by simp [← iff]⟩
  | true =>
    obtain ⟨b', run', iff'⟩ := rest (iff.mp rfl)
    exact ⟨b', run', by simp [← iff, iff']⟩

/-- A group decides whether one of its alternatives holds. -/
theorem group {α : Type} {P : α → Prop} {xs : List α} {cs : List Condition}
    (h : List.Forall₂ (fun x c => Decides s c (P x)) xs cs) : Decides s [.group cs] (∃ x ∈ xs, P x) := by
  have alternatives : ∃ b, Operand.evalAny s (cs.map .all) = .ok b ∧ (b = true ↔ ∃ x ∈ xs, P x) := by
    induction h with
    | nil => exact ⟨false, Operand.evalAny_nil, by simp⟩
    | cons first _ ih =>
      obtain ⟨b, run, iff⟩ := first
      rw [List.map_cons, Operand.evalAny_cons, run]
      cases b with
      | true => exact ⟨true, rfl, by simp [← iff]⟩
      | false =>
        obtain ⟨b', run', iff'⟩ := ih
        exact ⟨b', run', by simp [← iff, iff']⟩
  obtain ⟨b, run, iff⟩ := alternatives
  refine ⟨b, ?_, iff⟩
  rw [Condition.eval_cons, Operand.eval_group, run]
  cases b <;> rfl

end Decides

end ExprScript.Target
