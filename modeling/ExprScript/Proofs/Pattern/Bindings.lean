import ExprScript.Proofs.Pattern.Correct
import ExprScript.Proofs.Pattern.Test
import Mathlib.Logic.Function.Basic

/-!
# Bindings are the matched parts

Where the condition of a compiled pattern holds, each of its bindings reads the part of the value that the variable
matched: `bindings_read_matched_parts`.

- `Pattern.paths` has the way to each variable of a pattern. It only depends on the pattern;
- if the condition holds then the pattern matches (`accepts_of_holds`), whatever its constructors are called;
- however a compiled pattern matches, its places read what it binds (`reads_of_matches`). So there is one way only in
  which it matches;
- `State.declareAll` declares constants one after the other. If no name is declared twice and none hides the variable
  that the places start from, then each constant gets what its place reads to begin with.
-/

namespace ExprScript

open Target

namespace Target

/-! ## Reading parts -/

section Read

variable {σ : State} {root : Place} {r : Ref} {v : Value} (read : (placeOf root r).eval σ = .ok v)

include read

theorem read_argument (there : v.isNullish = false) (i arity : Nat) :
    (placeOf root (.argument r i arity)).eval σ = .ok (σ.property v (argumentName i arity)) := by
  simp [placeOf, Place.eval, read, State.readProperty_of_not_nullish there]

theorem read_property (there : v.isNullish = false) (name : Text) :
    (placeOf root (.property r name)).eval σ = .ok (σ.property v name) := by
  simp [placeOf, Place.eval, read, State.readProperty_of_not_nullish there]

theorem read_element {vs : List Value} (array : σ.elements? v = some vs) (i : Nat) :
    (placeOf root (.element r i)).eval σ = .ok (vs.getD i .undefined) := by
  simp [placeOf, Place.eval, read, State.readElement_of_array array]

theorem read_slice {vs : List Value} (array : σ.elements? v = some vs) (start : Nat) :
    (placeOf root (.slice r start)).eval σ = .ok (State.slice v start) := by
  simp [placeOf, Place.eval, read, State.readSlice_of_array array]

end Read

/-! ## If the condition holds, the pattern matches -/

section Holds

variable {s : Style} {σ : State} {root : Place}

/-- Parts whose tests hold match what is at their places. -/
theorem accept_parts {α : Type} {pattern : α → Pattern} {ref : α → Ref} {xs : List α} {ms : List Matcher}
    (compiled : List.Forall₂ (fun x m => (pattern x).matcher s (ref x) = .ok m) xs ms) (value : α → Value)
    (read : ∀ x ∈ xs, (placeOf root (ref x)).eval σ = .ok (value x))
    (parts : ∀ x ∈ xs, ∀ r m, (pattern x).matcher s r = .ok m → ∀ v, (placeOf root r).eval σ = .ok v →
      m.test.eval σ root = .ok true → Accepts σ (pattern x) v)
    (holds : ∀ m ∈ ms, m.test.eval σ root = .ok true) :
    List.Forall₂ (Accepts σ) (xs.map pattern) (xs.map value) := by
  induction compiled with
  | nil => exact .nil
  | cons first _ ih =>
    obtain ⟨here, others⟩ := List.forall_mem_cons.mp parts
    obtain ⟨readHere, readOthers⟩ := List.forall_mem_cons.mp read
    obtain ⟨holdsHere, holdOthers⟩ := List.forall_mem_cons.mp holds
    exact .cons (here _ _ first _ readHere holdsHere) (ih readOthers others holdOthers)

/-- **If the test of a compiled pattern holds, then the pattern matches.** -/
theorem accepts_of_holds (p : Pattern) : ∀ r m, p.matcher s r = .ok m → ∀ v, (placeOf root r).eval σ = .ok v →
    m.test.eval σ root = .ok true → Accepts σ p v := by
  induction p using Pattern.inductionOn with
  | wildcard => exact fun _ _ _ _ _ _ => accepts_wildcard
  | var name => exact fun _ _ _ _ _ _ => accepts_variable name
  | literal e =>
    intro r m compiled v read holds
    obtain ⟨code, -, rfl⟩ := Pattern.matcher_literal compiled
    obtain ⟨l, isLiteral, equal⟩ := (Test.holds_equals_iff read).mp holds
    exact (accepts_literal_iff isLiteral).mpr equal
  | construct name args ih =>
    intro r m compiled v read holds
    obtain ⟨ms, each, rfl⟩ := Pattern.matcher_construct compiled
    obtain ⟨first, others⟩ := Test.holds_conjunction_iff.mp holds
    have isInstance := (Test.holds_instanceOf_iff read).mp first
    have there := State.isNullish_of_instanceOf isInstance
    have accepted := accept_parts each (fun x => σ.property v (argumentName x.2 args.length))
      (fun x _ => read_argument read there x.2 args.length)
      (fun x mem => ih x.1 (List.fst_mem_of_mem_zipIdx mem)) others
    rw [List.zipIdx_map_fst, map_zipIdx_snd fun i => σ.property v (argumentName i args.length)] at accepted
    exact accepts_constructor_iff.mpr ⟨isInstance, accepted⟩
  | record fields ih =>
    intro r m compiled v read holds
    obtain ⟨ms, each, rfl⟩ := Pattern.matcher_record compiled
    obtain ⟨first, others⟩ := Test.holds_conjunction_iff.mp holds
    have there := (Test.holds_notNull_iff read).mp first
    exact accepts_record_iff.mpr ⟨there, accept_parts each (fun f => σ.property v f.name)
      (fun f _ => read_property read there f.name) ih others⟩
  | list elements tail ih ihTail =>
    intro r m compiled v read holds
    obtain ⟨ms, rest, each, rfl, cases⟩ := Pattern.matcher_list_cases compiled
    obtain ⟨first, others⟩ := Test.holds_conjunction_iff.mp holds
    obtain ⟨vs, array⟩ := (Test.holds_isArray_iff read).mp first
    obtain ⟨here, others⟩ := List.forall_mem_append.mp others
    have accepted := accept_parts each (fun x => vs.getD x.2 .undefined)
      (fun x _ => read_element read array x.2) (fun x mem => ih x.1 (List.fst_mem_of_mem_zipIdx mem)) here
    rw [List.zipIdx_map_fst, map_zipIdx_snd fun i => vs.getD i .undefined] at accepted
    rcases cases with ⟨exactly, _, rfl, -⟩ | ⟨t, m', rfl, notWildcard, compiled', rfl⟩
    · have length := (Test.holds_lengthIs_iff read array).mp (others _ List.mem_cons_self)
      exact (accepts_exactList_iff exactly).mpr ⟨vs, array, forall₂_read_iff.mp ⟨accepted, length⟩⟩
    · have length := (Test.holds_lengthAtLeast_iff read array).mp (others _ List.mem_cons_self)
      have last := ihTail t rfl _ _ compiled' _ (read_slice read array _) (others m' (by simp))
      exact (accepts_openList_iff notWildcard).mpr ⟨vs, array, forall₂_read_take_iff.mp ⟨accepted, length⟩, last⟩
  | named name p ih =>
    intro r m compiled v read holds
    obtain ⟨inner, compiled', rfl⟩ := Pattern.matcher_alias compiled
    exact accepts_alias_iff.mpr (ih r inner compiled' v read holds)
  | choice ps ih =>
    intro r m compiled v read holds
    obtain ⟨-, -, ⟨-, test⟩ | ⟨-, ms, each, test⟩⟩ := Pattern.matcher_or_cases compiled
    · rw [test, Test.eval] at holds
      cases holds
    · rw [test] at holds
      obtain ⟨t, mem, holds⟩ := Test.exists_of_holds_any holds
      obtain ⟨m', hm, rfl⟩ := List.mem_map.mp mem
      obtain ⟨p, part, compiled'⟩ := Outcome.exists_of_forall₂ each hm
      exact accepts_or_iff.mpr ⟨p, part, ih p part r m' compiled' v read holds⟩
  | foreign node =>
    intro r m compiled
    rw [Pattern.matcher] at compiled
    cases compiled

end Holds

/-! ## Places read what the pattern binds -/

/-- A variable's place holds the value that the variable is bound to. -/
def Reads (σ : State) (root : Place) (b : Text × Ref) (w : Text × Value) : Prop :=
  b.1 = w.1 ∧ (placeOf root b.2).eval σ = .ok w.2

section Reads

variable {s : Style} {σ : State} {root : Place}

/-- The places of parts read what the parts bind. -/
theorem read_parts {α : Type} {pattern : α → Pattern} {ref : α → Ref} {value : α → Value} {xs : List α}
    (read : ∀ x ∈ xs, (placeOf root (ref x)).eval σ = .ok (value x))
    (parts : ∀ x ∈ xs, ∀ v, (placeOf root (ref x)).eval σ = .ok v → ∀ ws, Matches σ (pattern x) v ws →
      List.Forall₂ (Reads σ root) ((pattern x).places (ref x)) ws) :
    ∀ ws, MatchesEach σ (xs.map pattern) (xs.map value) ws →
      List.Forall₂ (Reads σ root) (xs.flatMap fun x => (pattern x).places (ref x)) ws := by
  induction xs with
  | nil =>
    intro ws each
    cases each
    exact .nil
  | cons x xs ih =>
    intro ws each
    obtain ⟨here, others⟩ := List.forall_mem_cons.mp parts
    obtain ⟨readHere, readOthers⟩ := List.forall_mem_cons.mp read
    cases each with
    | cons first rest => exact List.rel_append (here _ readHere _ first) (ih readOthers others _ rest)

/-- Patterns that match the first elements of an array match what is read by index. -/
theorem matchesEach_read {ps : List Pattern} {vs : List Value} {ws : List (Text × Value)}
    (each : MatchesEach σ ps (vs.take ps.length) ws) :
    MatchesEach σ (ps.zipIdx.map Prod.fst) (ps.zipIdx.map fun x => vs.getD x.2 .undefined) ws := by
  have same := (exists_matchesEach_iff.mp ⟨ws, each⟩).length_eq
  rw [List.length_take] at same
  rwa [List.zipIdx_map_fst, map_zipIdx_snd fun i => vs.getD i .undefined, map_getD_range (by omega)]

/-- A tail that is not there, or a wildcard, has no places. -/
theorem places_of_isExact {tail : Option Pattern} (h : IsExact tail) (r : Ref) :
    tail.elim [] (Pattern.places r) = [] := by
  rcases h with rfl | rfl
  · rfl
  · rw [Option.elim_some, Pattern.places]

/-- **The places of a compiled pattern read what it binds**, in the same order. -/
theorem reads_of_matches (p : Pattern) : ∀ r m, p.matcher s r = .ok m → ∀ v, (placeOf root r).eval σ = .ok v →
    ∀ ws, Matches σ p v ws → List.Forall₂ (Reads σ root) (p.places r) ws := by
  induction p using Pattern.inductionOn with
  | wildcard =>
    intro r m _ v _ ws matched
    cases matched
    rw [Pattern.places]
    exact .nil
  | var name =>
    intro r m _ v read ws matched
    cases matched
    rw [Pattern.places]
    exact .cons ⟨rfl, read⟩ .nil
  | literal e =>
    intro r m _ v _ ws matched
    cases matched
    rw [Pattern.places]
    exact .nil
  | construct name args ih =>
    intro r m compiled v read ws matched
    obtain ⟨ms, parts, rfl⟩ := Pattern.matcher_construct compiled
    cases matched with
    | construct isInstance each =>
      have there := State.isNullish_of_instanceOf isInstance
      rw [State.arguments, ← map_zipIdx_snd fun i => σ.property v (argumentName i args.length)] at each
      rw [Pattern.places, Pattern.argumentPlaces_eq]
      refine read_parts (fun x _ => read_argument read there x.2 args.length) (fun x mem => ?_) ws
        (by rwa [List.zipIdx_map_fst])
      obtain ⟨m, -, compiled'⟩ := Outcome.exists_of_forall₂ parts.flip mem
      exact ih x.1 (List.fst_mem_of_mem_zipIdx mem) _ m compiled'
  | record fields ih =>
    intro r m compiled v read ws matched
    obtain ⟨ms, parts, rfl⟩ := Pattern.matcher_record compiled
    cases matched with
    | record there each =>
      rw [Pattern.places, NamedPattern.allPlaces_eq]
      refine read_parts (fun f _ => read_property read there f.name) (fun f mem => ?_) ws each
      obtain ⟨m, -, compiled'⟩ := Outcome.exists_of_forall₂ parts.flip mem
      exact ih f mem _ m compiled'
  | list elements tail ih ihTail =>
    intro r m compiled v read ws matched
    obtain ⟨ms, rest, parts, rfl, cases⟩ := Pattern.matcher_list_cases compiled
    have first {vs : List Value} (array : σ.elements? v = some vs) {ws : List (Text × Value)}
        (each : MatchesEach σ elements (vs.take elements.length) ws) : List.Forall₂ (Reads σ root)
          (elements.zipIdx.flatMap fun x => x.1.places (.element r x.2)) ws := by
      refine read_parts (fun x _ => read_element read array x.2) (fun x mem => ?_) ws (matchesEach_read each)
      obtain ⟨m, -, compiled'⟩ := Outcome.exists_of_forall₂ parts.flip mem
      exact ih x.1 (List.fst_mem_of_mem_zipIdx mem) _ m compiled'
    rw [Pattern.places_list]
    cases matched with
    | @exactList _ _ _ vs _ exactly array each =>
      have same := (exists_matchesEach_iff.mp ⟨ws, each⟩).length_eq
      rw [places_of_isExact exactly, List.append_nil]
      exact first array (by rwa [same, List.take_length])
    | openList notWildcard array each matched =>
      rcases cases with ⟨exactly, -⟩ | ⟨t, m', same, -, compiled', -⟩
      · simp [IsExact, notWildcard] at exactly
      · obtain rfl := Option.some.inj same
        exact List.rel_append (first array each)
          (ihTail _ rfl _ m' compiled' _ (read_slice read array _) _ matched)
  | named name p ih =>
    intro r m compiled v read ws matched
    obtain ⟨inner, compiled', rfl⟩ := Pattern.matcher_alias compiled
    cases matched with
    | named matched =>
      rw [Pattern.places]
      exact .cons ⟨rfl, read⟩ (ih r inner compiled' v read _ matched)
  | choice ps ih =>
    intro r m compiled v read ws matched
    obtain ⟨noVars, -, ⟨rfl, -⟩ | ⟨-, ms, parts, -⟩⟩ := Pattern.matcher_or_cases compiled
    · cases matched with
      | choice mem => cases mem
    · cases matched with
      | @choice p _ _ _ mem matched =>
        obtain ⟨m, -, compiled'⟩ := Outcome.exists_of_forall₂ parts.flip mem
        have inner := ih p mem r m compiled' v read ws matched
        have none : p.vars = [] := by
          rw [Pattern.allVars_eq, List.flatMap_eq_nil_iff] at noVars
          exact noVars p mem
        rw [Pattern.places_eq_nil_iff.mpr none] at inner
        rwa [Pattern.places_eq_nil_iff.mpr (by rw [Pattern.vars, noVars])]
  | foreign node =>
    intro r m compiled
    rw [Pattern.matcher] at compiled
    cases compiled

/-- Places read one value each. -/
theorem reads_unique {places : List (Text × Ref)} {vs ws : List (Text × Value)}
    (first : List.Forall₂ (Reads σ root) places vs) (second : List.Forall₂ (Reads σ root) places ws) : vs = ws := by
  induction first generalizing ws with
  | nil => cases second; rfl
  | cons here _ ih =>
    cases second with
    | cons here' rest =>
      have name := here.1.symm.trans here'.1
      have value := Except.ok.inj (here.2.symm.trans here'.2)
      rw [ih rest, Prod.ext name value]

end Reads

/-! ## Declaring constants one after the other -/

/-- The variable that a place starts from. -/
def Place.root : Place → Text
  | .var name => name.name
  | .property of _ => of.root
  | .element of _ => of.root
  | .slice of _ => of.root

/-- The state with a constant declared, which hides what had its name. -/
def State.declare (σ : State) (name : Text) (v : Value) : State :=
  { σ with lookup := Function.update σ.lookup name v }

/-- Declares constants one after the other: a later place is read with the earlier constants in scope. -/
def State.declareAll (σ : State) : List (Text × Place) → Reading State
  | [] => .ok σ
  | (name, place) :: rest => do (σ.declare name (← place.eval σ)).declareAll rest

section Declare

variable {σ : State}

theorem elementsOf_declare (name : Text) (v : Value) (o : Object) :
    (σ.declare name v).elementsOf o = σ.elementsOf o := by
  induction o with
  | allocated => rfl
  | slice of start ih => rw [State.elementsOf, State.elementsOf, ih]

theorem elements?_declare (name : Text) (v w : Value) : (σ.declare name v).elements? w = σ.elements? w := by
  cases w with
  | object o => rw [State.elements?, State.elements?, elementsOf_declare]
  | _ => rfl

theorem property_declare (name : Text) (v w : Value) (key : Text) :
    (σ.declare name v).property w key = σ.property w key := by
  simp only [State.property, State.property.own, elements?_declare]
  rfl

/-- A declaration does not change what a place reads that starts from another variable. -/
theorem eval_declare {name : Text} (v : Value) {place : Place} (h : place.root ≠ name) :
    place.eval (σ.declare name v) = place.eval σ := by
  induction place with
  | var x =>
    have h : x.name ≠ name := h
    simp only [Place.eval, State.declare, Function.update_of_ne h]
  | property of key ih => simp only [Place.eval, ih h, State.readProperty, property_declare]
  | element of i ih =>
    simp only [Place.eval, ih h, State.readElement, State.readProperty, property_declare, elements?_declare]
  | slice of start ih => simp only [Place.eval, ih h, State.readSlice, State.readElements, elements?_declare]

/-- Accesses do not change what a place starts from. -/
theorem root_after (place : Place) (path : List Access) : (place.after path).root = place.root := by
  induction path generalizing place with
  | nil => rfl
  | cons a path ih =>
    have first : (place.access a).root = place.root := by cases a <;> rfl
    exact (ih (place.access a)).trans first

/-- **Each constant gets what its place reads to begin with**, and all else stays, if no name is declared twice and none
is the variable that the places start from. -/
theorem declareAll_eq_ok {place : Place} {paths : List (Text × List Access)} {ws : List (Text × Value)}
    (reads : List.Forall₂ (fun b w => b.1 = w.1 ∧ (place.after b.2).eval σ = .ok w.2) paths ws)
    (distinct : (paths.map Prod.fst).Nodup) (visible : place.root ∉ paths.map Prod.fst) :
    ∃ σ', σ.declareAll (paths.map fun b => (b.1, place.after b.2)) = .ok σ' ∧ (∀ w ∈ ws, σ'.lookup w.1 = w.2) ∧
      ∀ name ∉ paths.map Prod.fst, σ'.lookup name = σ.lookup name := by
  induction paths generalizing σ ws with
  | nil =>
    cases reads
    exact ⟨σ, rfl, by simp, fun _ _ => rfl⟩
  | cons b paths ih =>
    obtain ⟨name, path⟩ := b
    cases reads with
    | @cons _ w _ ws here rest =>
      obtain ⟨rfl, read⟩ := here
      obtain ⟨fresh, distinct⟩ := List.nodup_cons.mp distinct
      obtain ⟨notHere, visible⟩ := not_or.mp (mt List.mem_cons.mpr visible)
      -- the later places start from the same variable, so they read in the new state what they read in the old one
      have unchanged (path : List Access) :
          (place.after path).eval (σ.declare w.1 w.2) = (place.after path).eval σ :=
        eval_declare w.2 (by rwa [root_after])
      obtain ⟨σ', declared, holds, kept⟩ :=
        ih (rest.imp fun b _ here => ⟨here.1, (unchanged b.2).trans here.2⟩) distinct visible
      refine ⟨σ', ?_, List.forall_mem_cons.mpr ⟨?_, holds⟩, fun other absent => ?_⟩
      · rw [List.map_cons, State.declareAll, read]
        exact declared
      · rw [kept _ fresh]
        exact Function.update_self w.1 w.2 σ.lookup
      · obtain ⟨notFirst, absent⟩ := not_or.mp (mt List.mem_cons.mpr absent)
        rw [kept other absent]
        exact Function.update_of_ne notFirst w.2 σ.lookup

end Declare

end Target

/-! ## All bindings -/

/-- The ways from a value to what the variables of a pattern match. -/
def Pattern.paths (p : Pattern) : List (Text × List Access) := (p.places .root).map fun b => (b.1, b.2.accesses)

theorem Pattern.paths_names (p : Pattern) : p.paths.map Prod.fst = p.vars := by
  rw [Pattern.paths, List.map_map, ← p.places_names .root]
  rfl

theorem Target.text_after (place : Place) (path : List Access) :
    (place.after path).text = place.text ++ path.flatMap Access.text := by
  induction path generalizing place with
  | nil => simp [Place.after]
  | cons a path ih =>
    have first : (place.access a).text = place.text ++ a.text := by
      cases a with
      | member name => rw [Place.access, Place.text, Access.text]; split <;> simp
      | index i => simp [Place.access, Place.text, Access.text]
      | slice start => simp [Place.access, Place.text, Access.text]
    rw [List.flatMap_cons, ← List.append_assoc, ← first]
    exact ih (place.access a)

/-- **Bindings read the matched parts.** The bindings of a compiled pattern are named by its variables, in the same
order and as often. In AssemblyScript, a binding is the value with accesses after it, which only depend on the pattern.
In every state in which `ref` can be read and the condition on it holds, the pattern matches in exactly one way, and
each binding reads, without a fault, what the variable matched. So if the names are distinct and none is the variable
that `ref` starts from, then declaring the bindings one after the other gives each variable what it matched, and leaves
the others alone.

The condition is run as a list of tests. It is also the text of a condition of the target language that is evaluated
so, if the pattern is well-formed and names constructors by identifiers. -/
theorem bindings_read_matched_parts (p : Pattern) (s : Style) (m : Matcher) (compiled : p.matcher s .root = .ok m) :
    (∀ value, (m.bindingCodes s.dialect value).map Prod.fst = p.vars) ∧
    (s.dialect = .assemblyScript →
      (∀ ref indentation : Text,
        (m.bindingCodes s.dialect (.text ref)).map (fun b => (b.1, b.2.toText indentation)) =
          p.paths.map fun b => (b.1, ref ++ b.2.flatMap Access.text)) ∧
      ∀ ref : Place,
        (p.isWellFormed = true → (∀ name ∈ p.constructors, name.isIdentifier = true) → ∃ c : Condition,
          c.isProper = true ∧ (∀ indentation, (m.condition s.dialect (.text ref.text)).toText indentation = c.text) ∧
          ∀ σ, c.eval σ = m.test.eval σ ref) ∧
        ∀ (σ : State) (v : Value), ref.eval σ = .ok v → m.test.eval σ ref = .ok true →
          ∃ values, (∀ ws, Matches σ p v ws ↔ ws = values) ∧
            List.Forall₂ (fun b w => b.1 = w.1 ∧ (ref.after b.2).text = ref.text ++ b.2.flatMap Access.text ∧
              (ref.after b.2).eval σ = .ok w.2) p.paths values ∧
            (p.vars.Nodup → ref.root ∉ p.vars →
              ∃ σ', σ.declareAll (p.paths.map fun b => (b.1, ref.after b.2)) = .ok σ' ∧
                (∀ w ∈ values, σ'.lookup w.1 = w.2) ∧ ∀ name ∉ p.vars, σ'.lookup name = σ.lookup name)) := by
  have bindings := p.bindings_eq_places s .root m compiled
  refine ⟨fun value => ?names, fun assemblyScript => ⟨fun ref indentation => ?texts, fun ref => ⟨?_, ?_⟩⟩⟩
  case names =>
    rw [Matcher.bindingCodes, List.map_map, bindings, ← p.places_names .root]
    rfl
  case texts =>
    rw [Matcher.bindingCodes, assemblyScript, bindings, Pattern.paths, List.map_map, List.map_map]
    refine List.map_congr_left fun b _ => ?_
    exact congrArg (Prod.mk b.1) (toText_refCode_eq_accesses ref indentation b.2)
  · intro wellFormed identifiers
    obtain ⟨c, read⟩ := isRead_of_wellFormed s ref p wellFormed identifiers .root m compiled
    refine ⟨c, read.proper, fun indentation => ?_, read.run⟩
    rw [assemblyScript]
    exact read.text indentation
  · intro σ v read holds
    obtain ⟨values, matched⟩ := accepts_of_holds p .root m compiled v read holds
    have reads (ws) (matched : Matches σ p v ws) := reads_of_matches p .root m compiled v read ws matched
    have there : List.Forall₂ (fun b w => b.1 = w.1 ∧ (ref.after b.2).eval σ = .ok w.2) p.paths values := by
      rw [Pattern.paths, List.forall₂_map_left_iff]
      exact (reads values matched).imp fun b w ⟨name, here⟩ => ⟨name, by rwa [← placeOf_eq_after]⟩
    refine ⟨values, fun ws => ⟨fun other => ?_, fun same => same ▸ matched⟩, ?_, fun distinct visible => ?_⟩
    · exact reads_unique (reads ws other) (reads values matched)
    · exact there.imp fun b w ⟨name, here⟩ => ⟨name, text_after ref b.2, here⟩
    · rw [← p.paths_names] at distinct visible ⊢
      exact declareAll_eq_ok there distinct visible

/-- A list of an option and a record, with names for the whole, for parts and for the rest. -/
def optionThenRecord : Pattern :=
  .alias "whole" (.list [.constructor "Some" [.variable "x"], .record [⟨"a b", .alias "y" .wildcard⟩]]
    (some (.variable "rest")))

/-- In this state, `xs` holds such a list. -/
def optionThenRecordState : State where
  lookup name := if name = "xs" then .object (.allocated 0) else .undefined
  elements name := if name = 0 then some [.object (.allocated 1), .object (.allocated 2), .bool true] else none
  isInstance
    | .allocated 1, name => name == "Some"
    | _, _ => false
  member
    | .object (.allocated 1), _ => .bool false
    | _, _ => .null

theorem bindings_read_optionThenRecord :
    ∃ m, optionThenRecord.matcher {} .root = .ok m ∧
      (m.bindingCodes .assemblyScript (.text "xs")).map (fun b => (b.1, b.2.toText [])) =
        ([("whole", "xs"), ("x", "xs[0].value"), ("y", "xs[1][\"a b\"]"), ("rest", "xs.slice(2)")] :
          List (Text × Text)) ∧
      m.test.eval optionThenRecordState (.var ⟨"xs", rfl⟩) = .ok true ∧
      optionThenRecord.vars.Nodup ∧ (Place.var ⟨"xs", rfl⟩).root ∉ optionThenRecord.vars ∧
      ∃ values σ', Matches optionThenRecordState optionThenRecord (.object (.allocated 0)) values ∧
        optionThenRecordState.declareAll
          (optionThenRecord.paths.map fun b => (b.1, (Place.var ⟨"xs", rfl⟩).after b.2)) = .ok σ' ∧
        ∀ w ∈ values, σ'.lookup w.1 = w.2 := by
  have distinct : optionThenRecord.vars.Nodup := by decide +kernel
  have visible : (Place.var ⟨"xs", rfl⟩).root ∉ optionThenRecord.vars := by decide +kernel
  refine ⟨_, rfl, by decide +kernel, rfl, distinct, visible, ?_⟩
  obtain ⟨-, assemblyScript⟩ := bindings_read_matched_parts optionThenRecord {} _ rfl
  obtain ⟨-, run⟩ := (assemblyScript rfl).2 (.var ⟨"xs", rfl⟩)
  obtain ⟨values, matched, -, declared⟩ := run optionThenRecordState (.object (.allocated 0)) rfl rfl
  obtain ⟨σ', declared, holds, -⟩ := declared distinct visible
  exact ⟨values, σ', (matched values).mpr rfl, declared, holds⟩

end ExprScript
