import ExprScript.Proofs.Pattern.Matches
import ExprScript.Proofs.Pattern.Spelling
import ExprScript.Proofs.Tree.Induction

/-!
# The places that variables name

- what a compiled pattern is made of, form by form (`Pattern.matcher_construct`, `Pattern.matcher_list_cases`, …);
- `Pattern.places` are the places that the variables of a pattern name, read off the pattern alone. Whatever the style,
  they are the bindings of the compiled pattern (`Pattern.bindings_eq_places`), and their names are the variables of the
  pattern in the same order (`Pattern.places_names`);
- `Ref.accesses` is the way to a place, and in AssemblyScript the place is written as the value with these accesses
  after it (`toText_refCode_eq_accesses`).
-/

namespace ExprScript

open Target

/-! ## What a compiled pattern is made of -/

namespace Pattern

variable {s : Style} {r : Ref} {m : Matcher}

theorem matcher_literal {e : Expr} (compiled : (Pattern.literal e).matcher s r = .ok m) :
    ∃ code, e.code s = .ok code ∧ m = ⟨.equals r e code, []⟩ := by
  rw [Pattern.matcher] at compiled
  obtain ⟨code, written, made⟩ := Outcome.bind_eq_ok_iff.mp compiled
  exact ⟨code, written, (Except.ok.inj made).symm⟩

theorem matcher_construct {name : Text} {args : List Pattern}
    (compiled : (Pattern.constructor name args).matcher s r = .ok m) :
    ∃ ms, List.Forall₂ (fun x m => x.1.matcher s (.argument r x.2 args.length) = .ok m) args.zipIdx ms ∧
      m = .conjunction (.instanceOf r name) ms := by
  rw [Pattern.matcher, Pattern.argumentMatchers_eq] at compiled
  obtain ⟨ms, each, made⟩ := Outcome.bind_eq_ok_iff.mp compiled
  exact ⟨ms, Outcome.mapM_eq_ok_iff.mp each, (Except.ok.inj made).symm⟩

theorem matcher_record {fields : List NamedPattern} (compiled : (Pattern.record fields).matcher s r = .ok m) :
    ∃ ms, List.Forall₂ (fun f m => f.pattern.matcher s (.property r f.name) = .ok m) fields ms ∧
      m = .conjunction (.notNull r) ms := by
  rw [Pattern.matcher, NamedPattern.matchers_eq] at compiled
  obtain ⟨ms, each, made⟩ := Outcome.bind_eq_ok_iff.mp compiled
  exact ⟨ms, Outcome.mapM_eq_ok_iff.mp each, (Except.ok.inj made).symm⟩

theorem matcher_elements {elements : List Pattern} {ms : List Matcher}
    (compiled : Pattern.elementMatchers s r 0 elements = .ok ms) :
    List.Forall₂ (fun x m => x.1.matcher s (.element r x.2) = .ok m) elements.zipIdx ms := by
  rw [Pattern.elementMatchers_eq] at compiled
  exact Outcome.mapM_eq_ok_iff.mp compiled

/-- After its elements, a list pattern either tests for the exact length and nothing else that could fail, or for
enough elements and its tail. -/
theorem matcher_list_cases {elements : List Pattern} {tail : Option Pattern}
    (compiled : (Pattern.list elements tail).matcher s r = .ok m) :
    ∃ ms rest, List.Forall₂ (fun x m => x.1.matcher s (.element r x.2) = .ok m) elements.zipIdx ms ∧
      m = .conjunction (.isArray r) (ms ++ rest) ∧
      (IsExact tail ∧ (∃ others, rest = ⟨.lengthIs r elements.length, []⟩ :: others ∧
          ∀ other ∈ others, other = ⟨.always, []⟩) ∨
        ∃ t m', tail = some t ∧ t ≠ .wildcard ∧ t.matcher s (.slice r elements.length) = .ok m' ∧
          rest = [⟨.lengthAtLeast r elements.length, []⟩, m']) := by
  cases tail with
  | none =>
    rw [Pattern.matcher] at compiled
    obtain ⟨ms, each, made⟩ := Outcome.bind_eq_ok_iff.mp compiled
    exact ⟨ms, _, matcher_elements each, (Except.ok.inj made).symm, .inl ⟨.inl rfl, [], rfl, by simp⟩⟩
  | some t =>
    by_cases wildcard : t = .wildcard
    · subst wildcard
      rw [Pattern.matcher] at compiled
      obtain ⟨ms, each, made⟩ := Outcome.bind_eq_ok_iff.mp compiled
      exact ⟨ms, _, matcher_elements each, (Except.ok.inj made).symm, .inl ⟨.inr rfl, [_], rfl, by simp⟩⟩
    · rw [Pattern.matcher_openList s r elements wildcard] at compiled
      obtain ⟨ms, each, compiled⟩ := Outcome.bind_eq_ok_iff.mp compiled
      obtain ⟨m', compiled', made⟩ := Outcome.bind_eq_ok_iff.mp compiled
      exact ⟨ms, _, matcher_elements each, (Except.ok.inj made).symm, .inr ⟨t, m', rfl, wildcard, compiled', rfl⟩⟩

theorem matcher_alias {name : Text} {p : Pattern} (compiled : (Pattern.alias name p).matcher s r = .ok m) :
    ∃ inner, p.matcher s r = .ok inner ∧ m = ⟨inner.test, (name, r) :: inner.bindings⟩ := by
  rw [Pattern.matcher] at compiled
  obtain ⟨inner, compiled', made⟩ := Outcome.bind_eq_ok_iff.mp compiled
  exact ⟨inner, compiled', (Except.ok.inj made).symm⟩

/-- A choice has no alternatives and never matches, or it tries its alternatives, which bind nothing. -/
theorem matcher_or_cases {ps : List Pattern} (compiled : (Pattern.or ps).matcher s r = .ok m) :
    Pattern.allVars ps = [] ∧ m.bindings = [] ∧ (ps = [] ∧ m.test = .never ∨
      ps ≠ [] ∧ ∃ ms, List.Forall₂ (fun p m => Pattern.matcher s r p = .ok m) ps ms ∧
        m.test = .any (ms.map Matcher.test)) := by
  by_cases empty : ps = []
  · subst empty
    rw [Pattern.matcher] at compiled
    obtain rfl := Except.ok.inj compiled
    exact ⟨by rw [Pattern.allVars], rfl, .inl ⟨rfl, rfl⟩⟩
  · rw [Pattern.matcher_or s r empty] at compiled
    obtain ⟨ms, each, made⟩ := Outcome.bind_eq_ok_iff.mp compiled
    unfold Matcher.choice at made
    split at made
    · rename_i noVars
      obtain rfl := Except.ok.inj made
      exact ⟨noVars, rfl, .inr ⟨empty, ms, Outcome.mapM_eq_ok_iff.mp each, rfl⟩⟩
    · cases made

end Pattern

/-! ## Places, read off the pattern -/

mutual

/-- The places that the variables of a pattern name, for a value at `r`. -/
def Pattern.places (r : Ref) : Pattern → List (Text × Ref)
  | .wildcard | .literal _ | .foreign _ => []
  | .variable name => [(name, r)]
  | .constructor _ args => Pattern.argumentPlaces r args.length 0 args
  | .record fields => NamedPattern.allPlaces r fields
  | .list elements none => Pattern.elementPlaces r 0 elements
  | .list elements (some tail) => Pattern.elementPlaces r 0 elements ++ tail.places (.slice r elements.length)
  | .alias name pattern => (name, r) :: pattern.places r
  | .or alternatives => Pattern.allPlaces r alternatives

/-- The places that the variables of patterns for one value name. -/
def Pattern.allPlaces (r : Ref) : List Pattern → List (Text × Ref)
  | [] => []
  | p :: rest => p.places r ++ Pattern.allPlaces r rest

/-- The places that the variables of arguments name, from argument `i` on. -/
def Pattern.argumentPlaces (r : Ref) (arity i : Nat) : List Pattern → List (Text × Ref)
  | [] => []
  | p :: rest => p.places (.argument r i arity) ++ Pattern.argumentPlaces r arity (i + 1) rest

/-- The places that the variables of elements name, from element `i` on. -/
def Pattern.elementPlaces (r : Ref) (i : Nat) : List Pattern → List (Text × Ref)
  | [] => []
  | p :: rest => p.places (.element r i) ++ Pattern.elementPlaces r (i + 1) rest

/-- The places that the variables of fields name. -/
def NamedPattern.allPlaces (r : Ref) : List NamedPattern → List (Text × Ref)
  | [] => []
  | ⟨name, pattern⟩ :: rest => pattern.places (.property r name) ++ NamedPattern.allPlaces r rest

end

section Parts

variable (r : Ref)

theorem Pattern.allPlaces_eq (ps : List Pattern) : Pattern.allPlaces r ps = ps.flatMap fun p => p.places r := by
  induction ps with
  | nil => rw [Pattern.allPlaces, List.flatMap_nil]
  | cons p rest ih => rw [Pattern.allPlaces, ih, List.flatMap_cons]

theorem Pattern.argumentPlaces_eq (arity : Nat) (ps : List Pattern) (i : Nat) :
    Pattern.argumentPlaces r arity i ps = (ps.zipIdx i).flatMap fun x => x.1.places (.argument r x.2 arity) := by
  induction ps generalizing i with
  | nil => rw [Pattern.argumentPlaces, List.zipIdx_nil, List.flatMap_nil]
  | cons p rest ih => rw [Pattern.argumentPlaces, ih, List.zipIdx_cons, List.flatMap_cons]

theorem Pattern.elementPlaces_eq (ps : List Pattern) (i : Nat) :
    Pattern.elementPlaces r i ps = (ps.zipIdx i).flatMap fun x => x.1.places (.element r x.2) := by
  induction ps generalizing i with
  | nil => rw [Pattern.elementPlaces, List.zipIdx_nil, List.flatMap_nil]
  | cons p rest ih => rw [Pattern.elementPlaces, ih, List.zipIdx_cons, List.flatMap_cons]

theorem NamedPattern.allPlaces_eq (fields : List NamedPattern) :
    NamedPattern.allPlaces r fields = fields.flatMap fun f => f.pattern.places (.property r f.name) := by
  induction fields with
  | nil => rw [NamedPattern.allPlaces, List.flatMap_nil]
  | cons f rest ih =>
    obtain ⟨name, pattern⟩ := f
    rw [NamedPattern.allPlaces, ih, List.flatMap_cons]

/-- The places of a list pattern are those of its elements, and then those of its tail. -/
theorem Pattern.places_list (elements : List Pattern) (tail : Option Pattern) :
    (Pattern.list elements tail).places r = (elements.zipIdx.flatMap fun x => x.1.places (.element r x.2)) ++
      tail.elim [] (Pattern.places (.slice r elements.length)) := by
  cases tail with
  | none => rw [Pattern.places, Pattern.elementPlaces_eq, Option.elim_none, List.append_nil]
  | some t => rw [Pattern.places, Pattern.elementPlaces_eq, Option.elim_some]

theorem Pattern.allVars_eq (ps : List Pattern) : Pattern.allVars ps = ps.flatMap Pattern.vars := by
  induction ps with
  | nil => rw [Pattern.allVars, List.flatMap_nil]
  | cons p rest ih => rw [Pattern.allVars, ih, List.flatMap_cons]

theorem NamedPattern.allVars_eq (fields : List NamedPattern) :
    NamedPattern.allVars fields = fields.flatMap fun f => f.pattern.vars := by
  induction fields with
  | nil => rw [NamedPattern.allVars, List.flatMap_nil]
  | cons f rest ih =>
    obtain ⟨name, pattern⟩ := f
    rw [NamedPattern.allVars, ih, List.flatMap_cons]

/-- The variables of a list pattern are those of its elements, and then those of its tail. -/
theorem Pattern.vars_list (elements : List Pattern) (tail : Option Pattern) :
    (Pattern.list elements tail).vars = elements.flatMap Pattern.vars ++ tail.elim [] Pattern.vars := by
  cases tail with
  | none => rw [Pattern.vars, Pattern.allVars_eq, Option.elim_none, List.append_nil]
  | some t => rw [Pattern.vars, Pattern.allVars_eq, Option.elim_some]

end Parts

/-! ## Names -/

/-- The names of places of parts are the variables of the parts. -/
theorem names_of_parts {α : Type} {pattern : α → Pattern} (ref : α → Ref) {xs : List α}
    (parts : ∀ x ∈ xs, ∀ r, ((pattern x).places r).map Prod.fst = (pattern x).vars) :
    (xs.flatMap fun x => (pattern x).places (ref x)).map Prod.fst = (xs.map pattern).flatMap Pattern.vars := by
  rw [List.map_flatMap, List.flatMap_map]
  exact List.flatMap_congr fun x mem => parts x mem (ref x)

/-- **The names of the places are the variables of the pattern**, in the same order and as often. -/
theorem Pattern.places_names (p : Pattern) : ∀ r, (p.places r).map Prod.fst = p.vars := by
  induction p using Pattern.inductionOn with
  | wildcard | literal | foreign => intro r; rw [Pattern.places, Pattern.vars, List.map_nil]
  | var name => intro r; rw [Pattern.places, Pattern.vars, List.map_singleton]
  | construct name args ih =>
    intro r
    rw [Pattern.places, Pattern.argumentPlaces_eq, Pattern.vars, Pattern.allVars_eq,
      names_of_parts _ fun x mem => ih x.1 (List.fst_mem_of_mem_zipIdx mem), List.zipIdx_map_fst]
  | record fields ih =>
    intro r
    rw [Pattern.places, NamedPattern.allPlaces_eq, Pattern.vars, NamedPattern.allVars_eq, names_of_parts _ ih,
      List.flatMap_map]
  | list elements tail ih ihTail =>
    intro r
    rw [Pattern.places_list, Pattern.vars_list, List.map_append,
      names_of_parts _ fun x mem => ih x.1 (List.fst_mem_of_mem_zipIdx mem), List.zipIdx_map_fst]
    cases tail with
    | none => rfl
    | some t => rw [Option.elim_some, Option.elim_some, ihTail t rfl]
  | named name p ih =>
    intro r
    rw [Pattern.places, Pattern.vars, List.map_cons, ih]
  | choice ps ih =>
    intro r
    have names := @names_of_parts _ id (fun _ => r) ps ih
    rw [Pattern.places, Pattern.allPlaces_eq, Pattern.vars, Pattern.allVars_eq]
    simpa using names

/-- Only a pattern without variables names no places. -/
theorem Pattern.places_eq_nil_iff {p : Pattern} {r : Ref} : p.places r = [] ↔ p.vars = [] := by
  rw [← p.places_names r, List.map_eq_nil_iff]

/-! ## Bindings -/

/-- The bindings of parts are the places of their variables. -/
theorem bindings_of_parts {s : Style} {α : Type} {pattern : α → Pattern} {ref : α → Ref} {xs : List α}
    {ms : List Matcher} (compiled : List.Forall₂ (fun x m => (pattern x).matcher s (ref x) = .ok m) xs ms)
    (parts : ∀ x ∈ xs, ∀ r m, (pattern x).matcher s r = .ok m → m.bindings = (pattern x).places r) :
    ms.flatMap Matcher.bindings = xs.flatMap fun x => (pattern x).places (ref x) := by
  induction compiled with
  | nil => rfl
  | cons first _ ih =>
    obtain ⟨here, rest⟩ := List.forall_mem_cons.mp parts
    rw [List.flatMap_cons, List.flatMap_cons, here _ _ first, ih rest]

/-- **A compiled pattern binds its variables to their places**, whatever the style. -/
theorem Pattern.bindings_eq_places (s : Style) (p : Pattern) :
    ∀ r m, p.matcher s r = .ok m → m.bindings = p.places r := by
  induction p using Pattern.inductionOn with
  | wildcard | var =>
    intro r m compiled
    rw [Pattern.matcher] at compiled
    obtain rfl := Except.ok.inj compiled
    rw [Pattern.places]
  | literal e =>
    intro r m compiled
    obtain ⟨code, -, rfl⟩ := Pattern.matcher_literal compiled
    rw [Pattern.places]
  | construct name args ih =>
    intro r m compiled
    obtain ⟨ms, each, rfl⟩ := Pattern.matcher_construct compiled
    rw [Pattern.places, Pattern.argumentPlaces_eq]
    exact bindings_of_parts each fun x mem => ih x.1 (List.fst_mem_of_mem_zipIdx mem)
  | record fields ih =>
    intro r m compiled
    obtain ⟨ms, each, rfl⟩ := Pattern.matcher_record compiled
    rw [Pattern.places, NamedPattern.allPlaces_eq]
    exact bindings_of_parts each ih
  | list elements tail ih ihTail =>
    intro r m compiled
    obtain ⟨ms, rest, each, rfl, cases⟩ := Pattern.matcher_list_cases compiled
    have here := bindings_of_parts each fun x mem => ih x.1 (List.fst_mem_of_mem_zipIdx mem)
    show (ms ++ rest).flatMap Matcher.bindings = _
    rw [Pattern.places_list, List.flatMap_append, here]
    congr 1
    rcases cases with ⟨exact, others, rfl, always⟩ | ⟨t, m', rfl, -, compiled', rfl⟩
    · have none : others.flatMap Matcher.bindings = [] :=
        List.flatMap_eq_nil_iff.mpr fun other mem => by rw [always other mem]
      rcases exact with rfl | rfl
      · exact none
      · rw [Option.elim_some, Pattern.places]
        exact none
    · rw [Option.elim_some, ← ihTail t rfl _ _ compiled']
      simp
  | named name p ih =>
    intro r m compiled
    obtain ⟨inner, compiled', rfl⟩ := Pattern.matcher_alias compiled
    rw [Pattern.places, ih _ _ compiled']
  | choice ps ih =>
    intro r m compiled
    obtain ⟨noVars, noBindings, -⟩ := Pattern.matcher_or_cases compiled
    rw [noBindings, eq_comm, Pattern.places_eq_nil_iff, Pattern.vars, noVars]
  | foreign node =>
    intro r m compiled
    rw [Pattern.matcher] at compiled
    cases compiled

/-! ## The way to a place -/

namespace Target

/-- One access to a part of a value. -/
inductive Access where
  | member (name : Text)
  | index (i : Nat)
  /-- The rest of a list from an index on. -/
  | slice (start : Nat)
deriving DecidableEq

/-- An access as it is written after what it starts from. -/
def Access.text : Access → Text
  | .member name => if name.isIdentifier then "." ++ name else "[" ++ Quoted.encode name ++ "]"
  | .index i => "[" ++ Text.ofNat i ++ "]"
  | .slice start => ".slice(" ++ Text.ofNat start ++ ")"

/-- A place with an access after it. -/
def Place.access (place : Place) : Access → Place
  | .member name => .property place name
  | .index i => .element place i
  | .slice start => .slice place start

/-- A place with accesses after it. -/
def Place.after (place : Place) (path : List Access) : Place := path.foldl Place.access place

theorem Place.after_concat (place : Place) (path : List Access) (a : Access) :
    place.after (path ++ [a]) = (place.after path).access a := by
  rw [Place.after, Place.after, List.foldl_concat]

end Target

/-- The way from the value to a place in it. -/
def Ref.accesses : Ref → List Access
  | .root => []
  | .argument of i arity => of.accesses ++ [.member (argumentName i arity)]
  | .property of name => of.accesses ++ [.member name]
  | .element of i => of.accesses ++ [.index i]
  | .slice of start => of.accesses ++ [.slice start]

theorem placeOf_eq_after (root : Place) (r : Ref) : placeOf root r = root.after r.accesses := by
  induction r with
  | root => rfl
  | argument of i arity ih => rw [placeOf, ih, Ref.accesses, Place.after_concat, Place.access]
  | property of name ih => rw [placeOf, ih, Ref.accesses, Place.after_concat, Place.access]
  | element of i ih => rw [placeOf, ih, Ref.accesses, Place.after_concat, Place.access]
  | slice of start ih => rw [placeOf, ih, Ref.accesses, Place.after_concat, Place.access]

/-- **A place is written as the value with accesses after it**, whatever the value is written as. -/
theorem toText_refCode_eq_accesses (ref indentation : Text) (r : Ref) :
    (r.code .assemblyScript (.text ref)).toText indentation = ref ++ r.accesses.flatMap Access.text := by
  induction r with
  | root => simp [Ref.code, Ref.accesses]
  | argument of i arity ih =>
    rw [Ref.accesses, List.flatMap_append, ← List.append_assoc, ← ih, List.flatMap_singleton, Access.text,
      if_pos (isIdentifier_argumentName i arity), Ref.code, argumentName]
    split <;> simp [Dialect.assemblyScript, Template.fillPiece] <;> rfl
  | property of name ih =>
    rw [Ref.accesses, List.flatMap_append, ← List.append_assoc, ← ih, List.flatMap_singleton, Access.text, Ref.code,
      toText_propertyCode]
    split <;> simp
  | element of i ih =>
    rw [Ref.accesses, List.flatMap_append, ← List.append_assoc, ← ih, List.flatMap_singleton, Access.text, Ref.code]
    simp
  | slice of start ih =>
    rw [Ref.accesses, List.flatMap_append, ← List.append_assoc, ← ih, List.flatMap_singleton, Access.text, Ref.code]
    simp [Dialect.assemblyScript, Template.fillPiece]

end ExprScript
