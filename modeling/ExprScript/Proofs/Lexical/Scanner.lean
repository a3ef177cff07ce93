import ExprScript.Number.Shortest
import ExprScript.Proofs.Text.Basic
import ExprScript.Text.Quoted

/-!
# Brackets and literals

A `Scanner` reads a text unit by unit and keeps the brackets that are open. It passes over literals in double quotes, in
which a backslash takes the next unit with it. A closing bracket that is not the partner of the innermost open one
stops it, and so does a line end in a literal.

- `Text.isSelfContained`: a scanner that starts outside literals with no open bracket ends like that. It then takes such
  a text in its stride wherever it stands in code (`Scanner.scan_of_isSelfContained`);
- texts without brackets and quotes are self-contained (`Text.isSelfContained_of_isPlain`): numerals and identifiers;
- `Quoted.isSelfContained_encode`: so is every quoted text, whatever is in it.
-/

namespace ExprScript

/-! ## The scanner -/

/-- The kinds of brackets. -/
inductive Bracket where
  | round
  | square
  | curly
deriving DecidableEq

/-- What a unit means outside literals. -/
inductive Mark where
  | opening (b : Bracket)
  | closing (b : Bracket)
  | quote
  | plain
deriving DecidableEq

/-- The units that mean something outside literals. -/
def Mark.table : List (CodeUnit × Mark) :=
  [(unit '(', .opening .round), (unit ')', .closing .round), (unit '[', .opening .square), (unit ']', .closing .square),
    (unit '\x7b', .opening .curly), (unit '\x7d', .closing .curly), (unit '\"', .quote)]

/-- The meaning of a unit outside literals. -/
def CodeUnit.mark (u : CodeUnit) : Mark := (Mark.table.lookup u).getD .plain

/-- Where a scanner is: in code, in a literal, or in a literal after a backslash. -/
inductive Mode where
  | code
  | literal
  | escape
deriving DecidableEq

/-- A scanner: where it is, and the open brackets, the innermost one first. -/
structure Scanner where
  mode : Mode
  opened : List Bracket
deriving DecidableEq

namespace Scanner

/-- In code, with no open bracket. -/
def start : Scanner := ⟨.code, []⟩

/-- Closes the innermost open bracket, of which `b` has to be the kind. -/
def close (b : Bracket) : List Bracket → Option (List Bracket)
  | [] => none
  | innermost :: outer => if innermost = b then some outer else none

/-- Where a unit leads in a literal. -/
def inLiteral? (u : CodeUnit) : Option Mode :=
  if u = newline then none
  else if u = unit '\"' then some .code
  else if u = unit '\\' then some .escape
  else some .literal

/-- Where a unit leads in a literal, after a backslash. -/
def afterBackslash? (u : CodeUnit) : Option Mode := if u = newline then none else some .literal

/-- Reads a unit. -/
def step (σ : Scanner) (u : CodeUnit) : Option Scanner :=
  match σ.mode with
  | .code =>
    match u.mark with
    | .opening b => some ⟨.code, b :: σ.opened⟩
    | .closing b => (close b σ.opened).map (⟨.code, ·⟩)
    | .quote => some ⟨.literal, σ.opened⟩
    | .plain => some σ
  | .literal => (inLiteral? u).map (⟨·, σ.opened⟩)
  | .escape => (afterBackslash? u).map (⟨·, σ.opened⟩)

/-- Reads a text. -/
def scan (σ : Scanner) : Text → Option Scanner
  | [] => some σ
  | u :: rest => (σ.step u).bind fun σ' => scan σ' rest

/-- The scanner with more brackets open around it. -/
def within (outer : List Bracket) (σ : Scanner) : Scanner := ⟨σ.mode, σ.opened ++ outer⟩

theorem scan_append (σ : Scanner) (s t : Text) : σ.scan (s ++ t) = (σ.scan s).bind fun σ' => σ'.scan t := by
  induction s generalizing σ with
  | nil => rfl
  | cons u rest ih =>
    rw [List.cons_append, scan, scan]
    cases σ.step u with
    | none => rfl
    | some σ' => exact ih σ'

theorem close_append {b : Bracket} {opened rest : List Bracket} (h : close b opened = some rest)
    (outer : List Bracket) : close b (opened ++ outer) = some (rest ++ outer) := by
  cases opened with
  | nil => cases h
  | cons innermost more =>
    simp only [close, Option.ite_none_right_eq_some, Option.some.injEq] at h
    obtain ⟨partner, rfl⟩ := h
    simp [close, partner]

/-- What a step does, it does inside other brackets too. -/
theorem step_within {σ σ' : Scanner} {u : CodeUnit} (h : σ.step u = some σ') (outer : List Bracket) :
    (σ.within outer).step u = some (σ'.within outer) := by
  obtain ⟨mode, opened⟩ := σ
  cases mode with
  | code =>
    simp only [step, within] at h ⊢
    cases mark : u.mark with
    | closing b =>
      simp only [mark, Option.map_eq_some_iff] at h ⊢
      obtain ⟨rest, closed, rfl⟩ := h
      exact ⟨_, close_append closed outer, rfl⟩
    | _ =>
      simp only [mark, Option.some.injEq] at h ⊢
      subst h
      rfl
  | literal | escape =>
    simp only [step, within, Option.map_eq_some_iff] at h ⊢
    obtain ⟨mode, read, rfl⟩ := h
    exact ⟨mode, read, rfl⟩

/-- What a run does, it does inside other brackets too. -/
theorem scan_within {σ σ' : Scanner} {t : Text} (h : σ.scan t = some σ') (outer : List Bracket) :
    (σ.within outer).scan t = some (σ'.within outer) := by
  induction t generalizing σ with
  | nil =>
    obtain rfl := Option.some.inj h
    rfl
  | cons u rest ih =>
    obtain ⟨next, first, others⟩ := Option.bind_eq_some_iff.mp h
    rw [scan, step_within first outer]
    exact ih others

end Scanner

/-! ## Self-contained texts -/

/-- Whether a text closes the brackets that it opens, no others, and every literal that it starts. -/
def Text.isSelfContained (t : Text) : Bool := Scanner.start.scan t == some .start

/-- A self-contained text changes nothing, wherever it stands in code. -/
theorem Scanner.scan_of_isSelfContained {t : Text} (h : t.isSelfContained = true) (opened : List Bracket) :
    scan ⟨.code, opened⟩ t = some ⟨.code, opened⟩ :=
  scan_within (beq_iff_eq.mp h) opened

namespace Text

open Scanner

variable {s t : Text}

theorem isSelfContained_append (hs : s.isSelfContained = true) (ht : t.isSelfContained = true) :
    (s ++ t).isSelfContained = true := by
  rw [isSelfContained, scan_append, start, scan_of_isSelfContained hs]
  exact ht

theorem isSelfContained_flatMap {α : Type} {f : α → Text} {as : List α} (h : ∀ a ∈ as, (f a).isSelfContained = true) :
    isSelfContained (as.flatMap f) = true := by
  induction as with
  | nil => rfl
  | cons a rest ih =>
    obtain ⟨first, others⟩ := List.forall_mem_cons.mp h
    rw [List.flatMap_cons]
    exact isSelfContained_append first (ih others)

theorem isSelfContained_join {separator : Text} (between : separator.isSelfContained = true) {ts : List Text}
    (h : ∀ t ∈ ts, t.isSelfContained = true) : (join separator ts).isSelfContained = true := by
  induction ts with
  | nil => rfl
  | cons t rest ih =>
    obtain ⟨first, others⟩ := List.forall_mem_cons.mp h
    by_cases last : rest = []
    · rw [last, join_singleton]
      exact first
    · rw [join_cons last]
      exact isSelfContained_append (isSelfContained_append first between) (ih others)

end Text

/-! ## Plain texts -/

/-- Whether a text has neither brackets nor quotes. -/
def Text.isPlain (t : Text) : Bool := t.all fun u => u.mark == .plain

/-- A unit of a class without brackets and quotes is plain. -/
theorem CodeUnit.mark_eq_plain {p : CodeUnit → Bool} (unmarked : ∀ m ∈ Mark.table, p m.1 = false) {u : CodeUnit}
    (h : p u = true) : u.mark = .plain := by
  have absent : Mark.table.lookup u = none := by
    refine List.lookup_eq_none_iff.mpr fun m mem => bne_iff_ne.mpr ?_
    rintro rfl
    rw [unmarked m mem] at h
    cases h
  rw [mark, absent]
  rfl

namespace Text

theorem isSelfContained_of_isPlain {t : Text} (h : t.isPlain = true) : t.isSelfContained = true := by
  induction t with
  | nil => rfl
  | cons u rest ih =>
    rw [isPlain, List.all_cons, Bool.and_eq_true, beq_iff_eq] at h
    have first : Scanner.start.step u = some .start := by simp [Scanner.step, Scanner.start, h.1]
    rw [isSelfContained, Scanner.scan, first]
    exact ih h.2

theorem isPlain_of_isIdentifier {t : Text} (h : t.isIdentifier = true) : t.isPlain = true := by
  cases t with
  | nil => rfl
  | cons u rest =>
    rw [isIdentifier, Bool.and_eq_true, List.all_eq_true] at h
    refine List.all_eq_true.mpr (List.forall_mem_cons.mpr ⟨?_, fun v mem => ?_⟩)
    · exact beq_iff_eq.mpr (CodeUnit.mark_eq_plain (p := isIdentifier.starts) (by decide) h.1)
    · exact beq_iff_eq.mpr
        (CodeUnit.mark_eq_plain (p := fun u => isIdentifier.starts u || u.isDigit) (by decide) (h.2 v mem))

theorem isPlain_of_digits {t : Text} (h : ∀ u ∈ t, u.isDigit = true) : t.isPlain = true :=
  List.all_eq_true.mpr fun u mem =>
    beq_iff_eq.mpr (CodeUnit.mark_eq_plain (p := CodeUnit.isDigit) (by decide) (h u mem))

theorem isPlain_ofNat (n : Nat) : (ofNat n).isPlain = true := isPlain_of_digits fun _ => isDigit_of_mem_ofNat

theorem isPlain_cons (u : CodeUnit) (t : Text) : isPlain (u :: t) = (u.mark == .plain && t.isPlain) := rfl

theorem isPlain_append (s t : Text) : (s ++ t).isPlain = (s.isPlain && t.isPlain) := List.all_append

end Text

namespace Number

theorem isPlain_significantDigits (d : Decimal) : (significantDigits d).isPlain = true := by
  refine Text.isPlain_of_digits fun u mem => Text.isDigit_of_mem_ofNat (n := d.digits) ?_
  rw [significantDigits, List.mem_reverse] at mem
  exact List.mem_reverse.mp ((List.dropWhile_suffix _).subset mem)

theorem isPlain_replicate_zero (n : Nat) : Text.isPlain (List.replicate n (unit '0')) = true :=
  Text.isPlain_of_digits fun u mem => by
    rw [List.eq_of_mem_replicate mem]
    decide

theorem isPlain_positiveText (x : Number) : x.positiveText.isPlain = true := by
  have digits := isPlain_significantDigits x.shortest
  have part {t : Text} (h : t ⊆ significantDigits x.shortest) : t.isPlain = true :=
    List.all_eq_true.mpr fun u mem => List.all_eq_true.mp digits u (h mem)
  unfold positiveText
  simp only
  split
  · rw [Text.isPlain_append, digits, isPlain_replicate_zero]
    rfl
  split
  · rw [Text.isPlain_append, Text.isPlain_cons, part (List.take_subset _ _), part (List.drop_subset _ _)]
    decide
  split
  · rw [Text.isPlain_append, Text.isPlain_append, digits, isPlain_replicate_zero]
    decide
  · rw [Text.isPlain_append, Text.isPlain_append, Text.isPlain_ofNat, Bool.and_true, Bool.and_eq_true]
    constructor
    · split
      · rename_i c c' rest eq
        rw [eq, Text.isPlain_cons, Bool.and_eq_true] at digits
        rw [Text.isPlain_cons, Text.isPlain_cons, digits.1, digits.2]
        decide
      · exact digits
    · split <;> decide

/-- A number is written with digits, signs, points and letters. -/
theorem isPlain_text (x : Number) : x.text.isPlain = true := by
  have sign : Text.isPlain (if x.isNegative then "-" else []) = true := by
    split
    · decide
    · rfl
  unfold text
  split
  · decide
  · simp only
    split
    · rw [Text.isPlain_append, sign]
      decide
    · split
      · decide
      · rw [Text.isPlain_append, sign, isPlain_positiveText]
        rfl

end Number

/-! ## Quoted texts -/

namespace Quoted

open Scanner

/-- A unit of a class without line ends, quotes and backslashes keeps a scanner in a literal. -/
theorem inLiteral?_eq_literal {p : CodeUnit → Bool}
    (unmarked : p newline = false ∧ p (unit '\"') = false ∧ p (unit '\\') = false) {u : CodeUnit} (h : p u = true) :
    inLiteral? u = some .literal := by
  have ne {m : CodeUnit} (hm : p m = false) : u ≠ m := by
    rintro rfl
    rw [hm] at h
    cases h
  simp [inLiteral?, ne unmarked.1, ne unmarked.2.1, ne unmarked.2.2]

/-- A unit that needs no short escape is none of those that matter in a literal. -/
theorem inLiteral?_of_shortEscape? {u : CodeUnit} (h : shortEscape? u = none) : inLiteral? u = some .literal :=
  inLiteral?_eq_literal (p := fun u => (shortEscape? u).isNone) (by decide) (by simp [h])

theorem afterBackslash?_of_shortEscape? {u letter : CodeUnit} (h : shortEscape? u = some letter) :
    afterBackslash? letter = some .literal := by
  unfold shortEscape? at h
  repeat' split at h
  · rename_i own
    obtain rfl := Option.some.inj h
    rcases Bool.or_eq_true_iff.mp own with own | own <;> rw [of_decide_eq_true own] <;> rfl
  all_goals cases h; try rfl

theorem inLiteral?_hexDigit {n : Nat} (h : n < 16) : inLiteral? (hexDigit n) = some .literal := by
  have digits : ∀ n : Fin 16, inLiteral? (hexDigit n) = some .literal := by decide
  exact digits ⟨n, h⟩

variable (opened : List Bracket)

/-- A unit that keeps a scanner in a literal. -/
theorem scan_cons_literal {u : CodeUnit} (h : inLiteral? u = some .literal) (rest : Text) :
    scan ⟨.literal, opened⟩ (u :: rest) = scan ⟨.literal, opened⟩ rest := by
  rw [scan, step, h]
  rfl

/-- A backslash takes the next unit with it. -/
theorem scan_cons_backslash {letter : CodeUnit} (h : afterBackslash? letter = some .literal) (rest : Text) :
    scan ⟨.literal, opened⟩ (unit '\\' :: letter :: rest) = scan ⟨.literal, opened⟩ rest := by
  have first : step ⟨.literal, opened⟩ (unit '\\') = some ⟨.escape, opened⟩ := rfl
  have second : step ⟨.escape, opened⟩ letter = some ⟨.literal, opened⟩ := by simp [step, h]
  rw [scan, first, Option.bind_some, scan, second, Option.bind_some]

theorem scan_escapeHex (u : CodeUnit) : scan ⟨.literal, opened⟩ (escapeHex u) = some ⟨.literal, opened⟩ := by
  have first : u.toNat / 0x1000 < 16 := by
    have := u.toNat_lt
    omega
  rw [escapeHex, scan_cons_backslash opened rfl, scan_cons_literal opened (inLiteral?_hexDigit first),
    scan_cons_literal opened (inLiteral?_hexDigit (by omega)),
    scan_cons_literal opened (inLiteral?_hexDigit (by omega)),
    scan_cons_literal opened (inLiteral?_hexDigit (by omega))]
  rfl

theorem scan_escapeUnit (u : CodeUnit) : scan ⟨.literal, opened⟩ (escapeUnit u) = some ⟨.literal, opened⟩ := by
  unfold escapeUnit
  cases short : shortEscape? u with
  | some letter =>
    simp only [scan_cons_backslash opened (afterBackslash?_of_shortEscape? short)]
    rfl
  | none =>
    simp only
    split
    · exact scan_escapeHex opened u
    · rw [scan_cons_literal opened (inLiteral?_of_shortEscape? short)]
      rfl

/-- What is in quotes keeps a scanner in the literal. -/
theorem scan_escape (t : Text) : scan ⟨.literal, opened⟩ (escape t) = some ⟨.literal, opened⟩ := by
  fun_induction escape t with
  | case1 => rfl
  | case2 u => exact scan_escapeUnit opened u
  | case3 u v rest pair ih =>
    rw [Bool.and_eq_true] at pair
    have high : inLiteral? u = some .literal := inLiteral?_eq_literal (p := CodeUnit.isHigh) (by decide) pair.1
    have low : inLiteral? v = some .literal := inLiteral?_eq_literal (p := CodeUnit.isLow) (by decide) pair.2
    rw [scan_cons_literal opened high, scan_cons_literal opened low, ih]
  | case4 u v rest single ih =>
    rw [scan_append, scan_escapeUnit]
    exact ih

/-- **Every quoted text is self-contained.** -/
theorem isSelfContained_encode (t : Text) : (encode t).isSelfContained = true := by
  have opening : step ⟨.code, []⟩ (unit '\"') = some ⟨.literal, []⟩ := rfl
  have closing : scan ⟨.literal, []⟩ [unit '\"'] = some ⟨.code, []⟩ := rfl
  rw [Text.isSelfContained, encode, List.cons_append, scan, start, opening, Option.bind_some, scan_append, scan_escape,
    Option.bind_some, closing]
  rfl

end Quoted

end ExprScript
