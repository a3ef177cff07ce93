import ExprScript.Proofs.Pattern.Matcher
import ExprScript.Proofs.Pattern.Spelling
import ExprScript.Proofs.Tree.Induction

/-!
# Compiled patterns decide matching

The condition that a pattern is compiled to is evaluated without a fault on every value, and it holds exactly for the
values that the pattern matches: `condition_decides_matching`.

The induction is on patterns. A part of a value can be read once the test that stands first in the conjunction holds,
and then the conditions of the parts decide on whatever is read, `undefined` included. So it does no harm that the
elements of a list are tested before its length.
-/

namespace ExprScript.Target

/-- A pattern is compiled to a condition that decides whether it matches what is at a place. -/
def DecidedBy (s : Style) (root : Place) (p : Pattern) : Prop :=
  ∀ r m, p.matcher s r = .ok m → ∃ c, Spells root m.test c ∧
    ∀ σ v, (placeOf root r).eval σ = .ok v → Decides σ c (Accepts σ p v)

/-! ## Parts -/

section Parts

variable {s : Style} {root : Place}

/-- Parts are compiled to conditions that decide, run together, whether each part matches its own value. -/
theorem decide_parts {α : Type} {pattern : α → Pattern} {ref : α → Ref} {xs : List α} {ms : List Matcher}
    (compiled : List.Forall₂ (fun x m => (pattern x).matcher s (ref x) = .ok m) xs ms)
    (parts : ∀ x ∈ xs, DecidedBy s root (pattern x)) :
    ∃ cs, List.Forall₂ (Spells root) (ms.map Matcher.test) cs ∧
      ∀ σ (value : α → Value), (∀ x ∈ xs, (placeOf root (ref x)).eval σ = .ok (value x)) →
        Decides σ cs.flatten (List.Forall₂ (Accepts σ) (xs.map pattern) (xs.map value)) := by
  induction compiled with
  | nil => exact ⟨[], .nil, fun σ value _ => ⟨true, Condition.eval_nil, by simp⟩⟩
  | @cons x m xs ms hx _ ih =>
    obtain ⟨first, rest⟩ := List.forall_mem_cons.mp parts
    obtain ⟨c, spelled, decides⟩ := first _ _ hx
    obtain ⟨cs, spelled', decides'⟩ := ih rest
    refine ⟨c :: cs, .cons spelled spelled', fun σ value read => ?_⟩
    obtain ⟨readFirst, readRest⟩ := List.forall_mem_cons.mp read
    simp only [List.flatten_cons, List.map_cons, List.forall₂_cons]
    exact (decides σ _ readFirst).append fun _ => decides' σ value readRest

/-- Alternatives are compiled to conditions that decide each for itself. -/
theorem decide_alternatives {r : Ref} {ps : List Pattern} {ms : List Matcher}
    (compiled : List.Forall₂ (fun p m => Pattern.matcher s r p = .ok m) ps ms)
    (parts : ∀ p ∈ ps, DecidedBy s root p) :
    ∃ cs, List.Forall₂ (Spells root) (ms.map Matcher.test) cs ∧
      ∀ σ v, (placeOf root r).eval σ = .ok v → List.Forall₂ (fun p c => Decides σ c (Accepts σ p v)) ps cs := by
  induction compiled with
  | nil => exact ⟨[], .nil, fun _ _ _ => .nil⟩
  | cons hp _ ih =>
    obtain ⟨first, rest⟩ := List.forall_mem_cons.mp parts
    obtain ⟨c, spelled, decides⟩ := first _ _ hp
    obtain ⟨cs, spelled', decides'⟩ := ih rest
    exact ⟨c :: cs, .cons spelled spelled', fun σ v read => .cons (decides σ v read) (decides' σ v read)⟩

/-- What is made of the positions in a list only depends on its length. -/
theorem map_zipIdx_snd {α β : Type} (f : Nat → β) (xs : List α) :
    xs.zipIdx.map (fun x => f x.2) = (List.range xs.length).map f := by
  rw [List.range_eq_range', ← List.zipIdx_map_snd, List.map_map]
  rfl

/-- The first elements of an array that has them, read by index. -/
theorem map_getD_range {vs : List Value} {n : Nat} (h : n ≤ vs.length) :
    (List.range n).map (fun i => vs.getD i .undefined) = vs.take n := by
  apply List.ext_getElem
  · simp [h]
  · intro i hi _
    have : i < vs.length := by simp at hi; omega
    simp [this]

/-- The elements that are read match, and there are no more, exactly if all elements match. -/
theorem forall₂_read_iff {R : Pattern → Value → Prop} {ps : List Pattern} {vs : List Value} :
    List.Forall₂ R ps ((List.range ps.length).map fun i => vs.getD i .undefined) ∧ (vs.length == ps.length) = true ↔
      List.Forall₂ R ps vs := by
  have read (same : vs.length = ps.length) :
      (List.range ps.length).map (fun i => vs.getD i .undefined) = vs := by
    rw [map_getD_range (by omega), ← same, List.take_length]
  constructor
  · rintro ⟨each, same⟩
    rwa [read (by simpa using same)] at each
  · intro each
    have same : vs.length = ps.length := each.length_eq.symm
    rw [read same]
    exact ⟨each, by simpa using same⟩

/-- The elements that are read match, and there are enough, exactly if the first elements match. -/
theorem forall₂_read_take_iff {R : Pattern → Value → Prop} {ps : List Pattern} {vs : List Value} :
    List.Forall₂ R ps ((List.range ps.length).map fun i => vs.getD i .undefined) ∧
      decide (ps.length ≤ vs.length) = true ↔ List.Forall₂ R ps (vs.take ps.length) := by
  constructor
  · rintro ⟨each, enough⟩
    rwa [map_getD_range (by simpa using enough)] at each
  · intro each
    have enough : ps.length ≤ vs.length := by
      have := each.length_eq
      simp at this; omega
    rw [map_getD_range enough]
    exact ⟨each, by simpa using enough⟩

end Parts

/-! ## One form at a time -/

namespace DecidedBy

variable {s : Style} {root : Place}

theorem wildcard : DecidedBy s root .wildcard := by
  intro r m compiled
  rw [Pattern.matcher] at compiled
  obtain rfl := Except.ok.inj compiled
  exact ⟨_, .always, fun σ v _ => Decides.always.congr (iff_of_true trivial accepts_wildcard)⟩

theorem var (name : Text) : DecidedBy s root (.variable name) := by
  intro r m compiled
  rw [Pattern.matcher] at compiled
  obtain rfl := Except.ok.inj compiled
  exact ⟨_, .always, fun σ v _ => Decides.always.congr (iff_of_true trivial (accepts_variable name))⟩

theorem literal {e : Expr} (h : e.isLiteral = true) : DecidedBy s root (.literal e) := by
  intro r m compiled
  obtain ⟨l, code, isLiteral, written, text⟩ := literal_code h s
  rw [Pattern.matcher, written] at compiled
  obtain rfl := Except.ok.inj compiled
  refine ⟨_, .equals r text, fun σ v read => ?_⟩
  have run : (Atom.equals (placeOf root r) l).eval σ = .ok (v.equals l) := by simp [Atom.eval, read]
  exact (Decides.atom run).congr (accepts_literal_iff isLiteral).symm

theorem construct (name : Identifier) {args : List Pattern} (parts : ∀ p ∈ args, DecidedBy s root p) :
    DecidedBy s root (.constructor name.name args) := by
  intro r m compiled
  rw [Pattern.matcher, Pattern.argumentMatchers_eq] at compiled
  obtain ⟨ms, each, made⟩ := Outcome.bind_eq_ok_iff.mp compiled
  obtain rfl := Except.ok.inj made
  obtain ⟨cs, spelled, decides⟩ := decide_parts (Outcome.mapM_eq_ok_iff.mp each)
    fun x mem => parts x.1 (List.fst_mem_of_mem_zipIdx mem)
  refine ⟨_, .all (.cons (.instanceOf r name) spelled) (by simp), fun σ v read => ?_⟩
  have run : (Atom.instanceOf (placeOf root r) name).eval σ = .ok (σ.instanceOf v name.name) := by
    simp [Atom.eval, read]
  have arguments : σ.instanceOf v name.name = true →
      Decides σ cs.flatten (List.Forall₂ (Accepts σ) args (σ.arguments v args.length)) := by
    intro isInstance
    have there := State.isNullish_of_instanceOf isInstance
    have := decides σ (fun x => σ.property v (argumentName x.2 args.length)) fun x _ => by
      simp [placeOf, Place.eval, read, State.readProperty_of_not_nullish there]
    rwa [List.zipIdx_map_fst, map_zipIdx_snd fun i => σ.property v (argumentName i args.length)] at this
  exact ((Decides.atom run).append arguments).congr accepts_constructor_iff.symm

theorem record {fields : List NamedPattern} (parts : ∀ f ∈ fields, DecidedBy s root f.pattern) :
    DecidedBy s root (.record fields) := by
  intro r m compiled
  rw [Pattern.matcher, NamedPattern.matchers_eq] at compiled
  obtain ⟨ms, each, made⟩ := Outcome.bind_eq_ok_iff.mp compiled
  obtain rfl := Except.ok.inj made
  obtain ⟨cs, spelled, decides⟩ := decide_parts (Outcome.mapM_eq_ok_iff.mp each) parts
  refine ⟨_, .all (.cons (.notNull r) spelled) (by simp), fun σ v read => ?_⟩
  have run : (Atom.notNull (placeOf root r)).eval σ = .ok (!v.isNullish) := by simp [Atom.eval, read]
  have values : (!v.isNullish) = true → Decides σ cs.flatten (List.Forall₂ (Accepts σ)
      (fields.map NamedPattern.pattern) (fields.map fun f => σ.property v f.name)) := by
    intro there
    have there : v.isNullish = false := by simpa using there
    exact decides σ (fun f => σ.property v f.name) fun f _ => by
      simp [placeOf, Place.eval, read, State.readProperty_of_not_nullish there]
  exact ((Decides.atom run).append values).congr (by rw [accepts_record_iff, Bool.not_eq_true'])

theorem named (name : Text) {p : Pattern} (inner : DecidedBy s root p) : DecidedBy s root (.alias name p) := by
  intro r m compiled
  rw [Pattern.matcher] at compiled
  obtain ⟨m', compiled', made⟩ := Outcome.bind_eq_ok_iff.mp compiled
  obtain rfl := Except.ok.inj made
  obtain ⟨c, spelled, decides⟩ := inner r m' compiled'
  exact ⟨c, ⟨spelled.proper, spelled.text⟩, fun σ v read => (decides σ v read).congr accepts_alias_iff.symm⟩

theorem choice {ps : List Pattern} (nonempty : ps ≠ []) (parts : ∀ p ∈ ps, DecidedBy s root p) :
    DecidedBy s root (.or ps) := by
  intro r m compiled
  rw [Pattern.matcher_or s r nonempty] at compiled
  obtain ⟨ms, each, made⟩ := Outcome.bind_eq_ok_iff.mp compiled
  have each := Outcome.mapM_eq_ok_iff.mp each
  obtain ⟨cs, spelled, decides⟩ := decide_alternatives each parts
  have some : ms.map Matcher.test ≠ [] := by
    rw [Ne, List.map_eq_nil_iff, ← List.length_eq_zero_iff, ← each.length_eq, List.length_eq_zero_iff]
    exact nonempty
  unfold Matcher.choice at made
  split at made
  · obtain rfl := Except.ok.inj made
    refine ⟨_, .any spelled some, fun σ v read => ?_⟩
    exact (Decides.group (decides σ v read)).congr accepts_or_iff.symm
  · cases made

/-! ## Lists -/

/-- An array is tested before anything is read of it. -/
theorem decides_array {σ : State} {place : Place} {v : Value} {d : Condition} {Q : List Value → Prop}
    (read : place.eval σ = .ok v) (rest : ∀ vs, σ.elements? v = some vs → Decides σ d (Q vs)) :
    Decides σ ([.atom (.isArray place)] ++ d) (∃ vs, σ.elements? v = some vs ∧ Q vs) := by
  have run : (Atom.isArray place).eval σ = .ok (σ.elements? v).isSome := by simp [Atom.eval, read]
  refine ((Decides.atom run).append (Q := ∃ vs, σ.elements? v = some vs ∧ Q vs) fun array => ?_).congr ?_
  · obtain ⟨vs, array⟩ := Option.isSome_iff_exists.mp array
    exact (rest vs array).congr (by simp [array])
  · constructor
    · exact And.right
    · rintro ⟨vs, array, q⟩
      exact ⟨by simp [array], vs, array, q⟩

/-- The elements of a list pattern decide on what is read by index, be it there or not. -/
theorem elements {ps : List Pattern} (parts : ∀ p ∈ ps, DecidedBy s root p) {r : Ref} {ms : List Matcher}
    (compiled : Pattern.elementMatchers s r 0 ps = .ok ms) :
    ∃ cs, List.Forall₂ (Spells root) (ms.map Matcher.test) cs ∧
      ∀ σ v vs, (placeOf root r).eval σ = .ok v → σ.elements? v = some vs → Decides σ cs.flatten
        (List.Forall₂ (Accepts σ) ps ((List.range ps.length).map fun i => vs.getD i .undefined)) := by
  rw [Pattern.elementMatchers_eq] at compiled
  obtain ⟨cs, spelled, decides⟩ := decide_parts (Outcome.mapM_eq_ok_iff.mp compiled)
    fun x mem => parts x.1 (List.fst_mem_of_mem_zipIdx mem)
  refine ⟨cs, spelled, fun σ v vs read array => ?_⟩
  have := decides σ (fun x => vs.getD x.2 .undefined) fun x _ => by
    simp [placeOf, Place.eval, read, State.readElement_of_array array]
  rwa [List.zipIdx_map_fst, map_zipIdx_snd fun i => vs.getD i .undefined] at this

/-- The tests of a list pattern: for an array, for its elements, and what else there is to test. -/
theorem spells_list (r : Ref) {ms rest : List Matcher} {cs ds : List Condition}
    (elements : List.Forall₂ (Spells root) (ms.map Matcher.test) cs)
    (others : List.Forall₂ (Spells root) (rest.map Matcher.test) ds) :
    Spells root (Matcher.conjunction (.isArray r) (ms ++ rest)).test
      ([.atom (.isArray (placeOf root r))] ++ (cs.flatten ++ ds.flatten)) := by
  have parts : List.Forall₂ (Spells root) ((ms ++ rest).map Matcher.test) (cs ++ ds) := by
    rw [List.map_append]
    exact List.rel_append elements others
  have all := Spells.all (.cons (.isArray r) parts) (by simp)
  rwa [List.flatten_cons, List.flatten_append] at all

/-- Without a tail, or with a wildcard for one, the length is tested for being exact. -/
theorem exactList {ps : List Pattern} {tail : Option Pattern} (exact : IsExact tail)
    (parts : ∀ p ∈ ps, DecidedBy s root p) : DecidedBy s root (.list ps tail) := by
  intro r m compiled
  have shape : ∃ ms others ds, Pattern.elementMatchers s r 0 ps = .ok ms ∧
      m = Matcher.conjunction (.isArray r) (ms ++ (⟨.lengthIs r ps.length, []⟩ :: others)) ∧
      List.Forall₂ (Spells root) (others.map Matcher.test) ds ∧ ∀ σ, Decides σ ds.flatten True := by
    rcases exact with rfl | rfl
    · rw [Pattern.matcher] at compiled
      obtain ⟨ms, each, made⟩ := Outcome.bind_eq_ok_iff.mp compiled
      exact ⟨ms, [], [], each, (Except.ok.inj made).symm, .nil, fun σ => ⟨true, Condition.eval_nil, by simp⟩⟩
    · rw [Pattern.matcher] at compiled
      obtain ⟨ms, each, made⟩ := Outcome.bind_eq_ok_iff.mp compiled
      exact ⟨ms, [⟨.always, []⟩], [[.always]], each, (Except.ok.inj made).symm, .cons .always .nil,
        fun σ => Decides.always⟩
  obtain ⟨ms, others, ds, each, rfl, spelled', decides'⟩ := shape
  obtain ⟨cs, spelled, decides⟩ := elements parts each
  refine ⟨_, spells_list r spelled (.cons (.lengthIs r ps.length) spelled'), fun σ v read => ?_⟩
  refine (decides_array read fun vs array => ?_).congr (accepts_exactList_iff exact).symm
  have run : (Atom.lengthIs (placeOf root r) ps.length).eval σ = .ok (vs.length == ps.length) := by
    simp [Atom.eval, read, State.readElements_of_array array]
  have length := (Decides.atom run).append fun _ => decides' σ
  exact ((decides σ v vs read array).append fun _ => length).congr (by rw [and_true, forall₂_read_iff])

/-- With any other tail, there must be enough elements, and the tail decides on the slice after them. -/
theorem openList {ps : List Pattern} {tail : Pattern} (notWildcard : tail ≠ .wildcard)
    (parts : ∀ p ∈ ps, DecidedBy s root p) (rest : DecidedBy s root tail) :
    DecidedBy s root (.list ps (some tail)) := by
  intro r m compiled
  rw [Pattern.matcher_openList s r ps notWildcard] at compiled
  obtain ⟨ms, each, compiled⟩ := Outcome.bind_eq_ok_iff.mp compiled
  obtain ⟨m', compiled', made⟩ := Outcome.bind_eq_ok_iff.mp compiled
  obtain rfl := Except.ok.inj made
  obtain ⟨cs, spelled, decides⟩ := elements parts each
  obtain ⟨c, spelled', decides'⟩ := rest _ _ compiled'
  refine ⟨_, spells_list r spelled (.cons (.lengthAtLeast r ps.length) (.cons spelled' .nil)), fun σ v read => ?_⟩
  refine (decides_array read fun vs array => ?_).congr (accepts_openList_iff notWildcard).symm
  have run : (Atom.lengthAtLeast (placeOf root r) ps.length).eval σ = .ok (decide (ps.length ≤ vs.length)) := by
    simp [Atom.eval, read, State.readElements_of_array array]
  have slice : (placeOf root (.slice r ps.length)).eval σ = .ok (State.slice v ps.length) := by
    simp [placeOf, Place.eval, read, State.readSlice_of_array array]
  have others := (Decides.atom run).append fun _ => decides' σ _ slice
  rw [List.flatten_cons, List.flatten_singleton]
  exact ((decides σ v vs read array).append fun _ => others).congr (by rw [← and_assoc, forall₂_read_take_iff])

end DecidedBy

/-! ## All patterns -/

/-- A well-formed pattern that names constructors by identifiers is decided. -/
theorem decidedBy_of_wellFormed (s : Style) (root : Place) (p : Pattern) : p.isWellFormed = true →
    (∀ name ∈ p.constructors, name.isIdentifier = true) → DecidedBy s root p := by
  induction p using Pattern.inductionOn with
  | wildcard => exact fun _ _ => .wildcard
  | var name => exact fun _ _ => .var name
  | literal e =>
    intro wellFormed _
    rw [Pattern.isWellFormed, Bool.and_eq_true] at wellFormed
    exact .literal wellFormed.1
  | construct name args ih =>
    intro wellFormed identifiers
    rw [Pattern.isWellFormed, Pattern.allWellFormed_iff] at wellFormed
    simp only [Pattern.constructors, List.forall_mem_cons, Pattern.mem_allConstructors] at identifiers
    exact .construct ⟨name, identifiers.1⟩ fun p mem =>
      ih p mem (wellFormed p mem) fun c hc => identifiers.2 c ⟨p, mem, hc⟩
  | record fields ih =>
    intro wellFormed identifiers
    rw [Pattern.isWellFormed, NamedPattern.allWellFormed_iff] at wellFormed
    simp only [Pattern.constructors, NamedPattern.mem_allConstructors] at identifiers
    exact .record fun f mem => ih f mem (wellFormed f mem) fun c hc => identifiers c ⟨f, mem, hc⟩
  | list elements tail ih ihTail =>
    intro wellFormed identifiers
    obtain ⟨wellFormed, wellFormedTail⟩ := Pattern.isWellFormed_list_iff.mp wellFormed
    simp only [Pattern.mem_constructors_list] at identifiers
    have parts : ∀ p ∈ elements, DecidedBy s root p := fun p mem =>
      ih p mem (wellFormed p mem) fun c hc => identifiers c (.inl ⟨p, mem, hc⟩)
    by_cases exact : IsExact tail
    · exact .exactList exact parts
    · cases tail with
      | none => exact absurd (.inl rfl) exact
      | some t =>
        have notWildcard : t ≠ .wildcard := fun h => exact (.inr (congrArg some h))
        exact .openList notWildcard parts (ihTail t rfl (wellFormedTail t rfl) fun c hc =>
          identifiers c (.inr ⟨t, rfl, hc⟩))
  | named name p ih =>
    intro wellFormed identifiers
    rw [Pattern.isWellFormed] at wellFormed
    rw [Pattern.constructors] at identifiers
    exact .named name (ih wellFormed identifiers)
  | choice ps ih =>
    intro wellFormed identifiers
    rw [Pattern.isWellFormed, Bool.and_eq_true, Pattern.allWellFormed_iff] at wellFormed
    simp only [Pattern.constructors, Pattern.mem_allConstructors] at identifiers
    refine .choice (by simpa using wellFormed.1) fun p mem => ?_
    exact ih p mem (wellFormed.2 p mem) fun c hc => identifiers c ⟨p, mem, hc⟩
  | foreign node =>
    intro wellFormed
    simp [Pattern.isWellFormed] at wellFormed

/-- **Compiled patterns decide matching.** In AssemblyScript, the condition of a well-formed pattern on what is at
`ref` reads as a conjunction of tests and groups. In every state in which `ref` can be read, it is evaluated without a
fault, and it holds exactly if the pattern matches the value at `ref`. -/
theorem condition_decides_matching (s : Style) (assemblyScript : s.dialect = .assemblyScript) (p : Pattern)
    (wellFormed : p.isWellFormed = true) (identifiers : ∀ name ∈ p.constructors, name.isIdentifier = true)
    (ref : Place) (m : Matcher) (compiled : p.matcher s .root = .ok m) :
    ∃ c : Condition, c.isProper = true ∧
      (∀ indentation, (m.condition s.dialect (.text ref.text)).toText indentation = c.text) ∧
      ∀ (σ : State) (v : Value), ref.eval σ = .ok v → ∃ b, c.eval σ = .ok b ∧ (b = true ↔ Accepts σ p v) := by
  obtain ⟨c, spelled, decides⟩ := decidedBy_of_wellFormed s ref p wellFormed identifiers .root m compiled
  refine ⟨c, spelled.proper, fun indentation => ?_, decides⟩
  rw [assemblyScript]
  exact spelled.text indentation

/-- A list that starts with one of two shapes. -/
def shapeThenRest : Pattern :=
  .list [.or [.constructor "Some" [.literal (.int (.ofNat 1))], .record [⟨"a b", .literal (.string "x")⟩]]]
    (some (.variable "rest"))

/-- The place `x.items`. -/
def itemsPlace : Place := .property (.var ⟨"x", rfl⟩) "items"

theorem condition_decides_shapeThenRest : shapeThenRest.isWellFormed = true ∧
    (∀ name ∈ shapeThenRest.constructors, name.isIdentifier = true) ∧
    ∃ m, shapeThenRest.matcher {} .root = .ok m ∧
      (m.condition .assemblyScript (.text itemsPlace.text)).toText [] = ("Array.isArray(x.items) && " : Text) ++
        "((x.items[0] instanceof Some && x.items[0].value === 1) || " ++
        "(x.items[0] != null && x.items[0][\"a b\"] === \"x\")) && x.items.length >= 1 && true" ∧
      ∃ c : Condition, c.isProper = true ∧
        (∀ indentation, (m.condition .assemblyScript (.text itemsPlace.text)).toText indentation = c.text) ∧
        ∀ (σ : State) (v : Value), itemsPlace.eval σ = .ok v →
          ∃ b, c.eval σ = .ok b ∧ (b = true ↔ Accepts σ shapeThenRest v) := by
  have wellFormed : shapeThenRest.isWellFormed = true := by decide +kernel
  have identifiers : ∀ name ∈ shapeThenRest.constructors, name.isIdentifier = true := by decide
  refine ⟨wellFormed, identifiers, _, rfl, by decide +kernel, ?_⟩
  exact condition_decides_matching {} rfl shapeThenRest wellFormed identifiers itemsPlace _ rfl

end ExprScript.Target
