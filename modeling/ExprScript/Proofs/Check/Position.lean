import ExprScript.Check.Basic
import Mathlib.Data.List.Forall2

/-!
# Positions in checked text

A parser counts lines and columns in the text that it is given, which has more in it than the code that is checked.
`issues_refer_to_code` says that the reported positions are nevertheless those in the code alone.

- `Text.endsLineAt` says at which indices lines end, and `Position.IsAt` what the position of an offset is: the line
  counts the line ends before the offset, and the column counts from the last of them;
- `Position.ofOffset_succ`: from one offset to the next, a position moves on by a column or to the next line. So
  `Position.ofOffset` gives what `Position.IsAt` asks for (`Position.isAt_ofOffset`);
- `Position.ofOffset_shift`: what stands before a text and ends no line moves columns on the first line, and no other
  position.
-/

namespace ExprScript

/-! ## Where lines end -/

/-- Whether a line ends with the unit at an index: a line feed, U+2028, U+2029, or a carriage return that has no line
feed after it. -/
def Text.endsLineAt (t : Text) (i : Nat) : Bool :=
  t[i]? == some 10 || t[i]? == some 0x2028 || t[i]? == some 0x2029 || (t[i]? == some 13 && t[i + 1]? != some 10)

namespace Text

theorem endsLineAt_nil (i : Nat) : endsLineAt [] i = false := rfl

theorem endsLineAt_cons_zero (u : CodeUnit) (rest : Text) : endsLineAt (u :: rest) 0 = Position.endsLine u rest := by
  simp [endsLineAt, Position.endsLine, List.head?_eq_getElem?]

/-- What stands before a text does not matter for where its lines end. -/
theorem endsLineAt_append_right (s t : Text) (i : Nat) : (s ++ t).endsLineAt (s.length + i) = t.endsLineAt i := by
  simp [endsLineAt, List.getElem?_append_right, Nat.add_assoc]

/-- What stands after a text matters only if a line feed comes to stand after its last carriage return. -/
theorem endsLineAt_append_left {s t : Text} {i : Nat} (inside : i < s.length)
    (next : i + 1 < s.length ∨ s[i]? ≠ some 13 ∨ t.head? ≠ some 10) : (s ++ t).endsLineAt i = s.endsLineAt i := by
  have same : (s ++ t)[i]? = s[i]? := List.getElem?_append_left inside
  by_cases more : i + 1 < s.length
  · rw [endsLineAt, endsLineAt, same, List.getElem?_append_left more]
  · have last : i + 1 = s.length := by omega
    have after : (s ++ t)[i + 1]? = t.head? := by
      rw [last, List.getElem?_append_right (Nat.le_refl _), Nat.sub_self, List.head?_eq_getElem?]
    have outside : s[i + 1]? = none := List.getElem?_eq_none (by omega)
    rw [endsLineAt, endsLineAt, same, after, outside]
    rcases next.resolve_left more with other | other
    · rw [beq_eq_false_iff_ne.mpr other, Bool.false_and, Bool.false_and]
    · rw [bne_iff_ne.mpr other]
      rfl

end Text

/-! ## From one offset to the next -/

namespace Position

theorem lt_of_mem_lineStartsFrom {t : Text} {offset k : Nat} (h : k ∈ lineStartsFrom offset t) : offset < k := by
  induction t generalizing offset with
  | nil => simp [lineStartsFrom] at h
  | cons u rest ih =>
    have later : k ∈ lineStartsFrom (offset + 1) rest → offset < k := fun mem => by
      have := ih mem
      omega
    rw [lineStartsFrom] at h
    split at h
    · rcases List.mem_cons.mp h with rfl | mem
      · omega
      · exact later mem
    · exact later h

/-- The lines that start in the first `n` units after the start of a text do so after the line ends among them. -/
theorem filter_lineStartsFrom (t : Text) (offset n : Nat) : (lineStartsFrom offset t).filter (· ≤ offset + n) =
    ((List.range n).filter t.endsLineAt).map (offset + · + 1) := by
  induction t generalizing offset n with
  | nil => simp [lineStartsFrom, Text.endsLineAt_nil]
  | cons u rest ih =>
    cases n with
    | zero =>
      rw [List.range_zero, List.filter_nil, List.map_nil, List.filter_eq_nil_iff]
      intro k mem
      have := lt_of_mem_lineStartsFrom mem
      simpa using this
    | succ n =>
      have others : (lineStartsFrom (offset + 1) rest).filter (· ≤ offset + (n + 1)) =
          ((List.range n).filter (Text.endsLineAt rest)).map (offset + 1 + · + 1) := by
        rw [← ih, Nat.add_right_comm offset 1 n, Nat.add_assoc]
      have tail : (((List.range n).map Nat.succ).filter (Text.endsLineAt (u :: rest))).map (offset + · + 1) =
          ((List.range n).filter (Text.endsLineAt rest)).map (offset + 1 + · + 1) := by
        rw [List.filter_map, List.map_map]
        refine congrArg₂ List.map (funext fun i => ?_) rfl
        show offset + (i + 1) + 1 = offset + 1 + i + 1
        omega
      rw [List.range_succ_eq_map, lineStartsFrom, List.filter_cons, Text.endsLineAt_cons_zero]
      by_cases ends : endsLine u rest
      · have first : offset + 1 ≤ offset + (n + 1) := by omega
        simp only [ends, if_true, List.filter_cons, first, decide_true, others, List.map_cons, tail, Nat.add_zero]
      · simp only [ends, Bool.false_eq_true, if_false, others, tail]

/-- The lines that start at or before an offset. -/
def startsUpTo (t : Text) (offset : Nat) : List Nat := 0 :: ((List.range offset).filter t.endsLineAt).map (· + 1)

theorem filter_lineStarts (t : Text) (offset : Nat) : (lineStarts t).filter (· ≤ offset) = startsUpTo t offset := by
  have others := filter_lineStartsFrom t 0 offset
  simp only [Nat.zero_add] at others
  rw [lineStarts, List.filter_cons, others, startsUpTo]
  simp

theorem startsUpTo_succ (t : Text) (offset : Nat) : startsUpTo t (offset + 1) =
    startsUpTo t offset ++ if t.endsLineAt offset then [offset + 1] else [] := by
  rw [startsUpTo, startsUpTo, List.range_succ, List.filter_append, List.map_append, List.cons_append, List.filter_cons]
  split <;> simp

theorem ofOffset_eq (t : Text) (offset : Nat) :
    ofOffset t offset = ⟨(startsUpTo t offset).length - 1, offset - (startsUpTo t offset).getLast?.getD 0⟩ := by
  rw [ofOffset, filter_lineStarts]

theorem ofOffset_zero (t : Text) : ofOffset t 0 = ⟨0, 0⟩ := ofOffset_eq t 0

/-- **From one offset to the next** a position moves on by a column, or to the next line if a line ends there. -/
theorem ofOffset_succ (t : Text) (offset : Nat) : ofOffset t (offset + 1) =
    if t.endsLineAt offset then ⟨(ofOffset t offset).line + 1, 0⟩
    else ⟨(ofOffset t offset).line, (ofOffset t offset).column + 1⟩ := by
  have nonempty : 0 < (startsUpTo t offset).length := by simp [startsUpTo]
  rw [ofOffset_eq, ofOffset_eq, startsUpTo_succ]
  split
  · simp
    omega
  · obtain ⟨start, last⟩ : ∃ start, (startsUpTo t offset).getLast? = some start :=
      Option.isSome_iff_exists.mp (by simp [startsUpTo])
    have before : start ≤ offset := by
      have mem := List.mem_of_getLast? last
      rw [← filter_lineStarts, List.mem_filter] at mem
      exact of_decide_eq_true mem.2
    simp [last]
    omega

/-! ## What the position of an offset is -/

/-- A position is that of an offset: its line counts the line ends before the offset, and its column counts from where
the last of those lines ends. -/
structure IsAt (t : Text) (offset : Nat) (p : Position) : Prop where
  line : p.line = (List.range offset).countP t.endsLineAt
  column : ∃ start, start + p.column = offset ∧ (∀ i, start = i + 1 → t.endsLineAt i = true) ∧
    ∀ i, start ≤ i → i < offset → t.endsLineAt i = false

/-- **The position that is computed for an offset** is the position of that offset. -/
theorem isAt_ofOffset (t : Text) (offset : Nat) : IsAt t offset (ofOffset t offset) := by
  induction offset with
  | zero =>
    rw [ofOffset_zero]
    exact ⟨rfl, 0, rfl, by omega, by omega⟩
  | succ n ih =>
    obtain ⟨line, start, eq, ended, none⟩ := ih
    rw [ofOffset_succ]
    split
    · rename_i ends
      refine ⟨by simp [List.range_succ, line, ends], n + 1, rfl, ?_, by omega⟩
      rintro i same
      obtain rfl : n = i := by omega
      exact ends
    · rename_i ends
      refine ⟨by simp [List.range_succ, line, ends], start, by simp only; omega, ended, fun i after before => ?_⟩
      by_cases last : i = n
      · simpa [last] using ends
      · exact none i after (by omega)

/-- An offset has only one position. -/
theorem IsAt.unique {t : Text} {offset : Nat} {p q : Position} (hp : IsAt t offset p) (hq : IsAt t offset q) :
    p = q := by
  obtain ⟨line, start, eq, ended, none⟩ := hp
  obtain ⟨line', start', eq', ended', none'⟩ := hq
  have before {a b : Nat} (le : b ≤ offset) (ended : ∀ i, b = i + 1 → t.endsLineAt i = true)
      (none : ∀ i, a ≤ i → i < offset → t.endsLineAt i = false) : b ≤ a := by
    by_contra later
    obtain ⟨i, rfl⟩ := Nat.exists_eq_succ_of_ne_zero (show b ≠ 0 by omega)
    have := none i (by omega) (by omega)
    rw [ended i rfl] at this
    cases this
  have same : start = start' := Nat.le_antisymm (before (by omega) ended none') (before (by omega) ended' none)
  obtain ⟨l, c⟩ := p
  obtain ⟨l', c'⟩ := q
  simp only [Position.mk.injEq] at *
  omega

theorem isAt_iff {t : Text} {offset : Nat} {p : Position} : p.IsAt t offset ↔ p = ofOffset t offset :=
  ⟨fun h => h.unique (isAt_ofOffset t offset), fun h => h ▸ isAt_ofOffset t offset⟩

/-! ## Positions in a text that something stands before -/

/-- A position, in a text that has `k` units on its first line before it. -/
def shift (k : Nat) (p : Position) : Position := ⟨p.line, if p.line = 0 then k + p.column else p.column⟩

/-- Up to where two texts end their lines alike, one of them with `k` units before it that end no line. -/
theorem ofOffset_shift {t whole : Text} {k n : Nat} (noEnd : ∀ i < k, whole.endsLineAt i = false)
    (same : ∀ i < n, whole.endsLineAt (k + i) = t.endsLineAt i) :
    ofOffset whole (k + n) = (ofOffset t n).shift k := by
  induction n with
  | zero =>
    have first : ∀ m ≤ k, ofOffset whole m = ⟨0, m⟩ := by
      intro m le
      induction m with
      | zero => exact ofOffset_zero whole
      | succ m ih => rw [ofOffset_succ, noEnd m (by omega), ih (by omega)]; rfl
    rw [Nat.add_zero, first k (Nat.le_refl k), ofOffset_zero]
    rfl
  | succ n ih =>
    have before := ih fun i lt => same i (by omega)
    rw [← Nat.add_assoc, ofOffset_succ, before, same n (by omega), ofOffset_succ]
    split
    · simp [shift]
    · by_cases first : (ofOffset t n).line = 0
      · simp [shift, first, Nat.add_assoc]
      · simp [shift, first]

theorem ofOffset_congr {t whole : Text} {n : Nat} (same : ∀ i < n, whole.endsLineAt i = t.endsLineAt i) :
    ofOffset whole n = ofOffset t n := by
  have moved := ofOffset_shift (k := 0) (by omega) (by simpa using same)
  rw [Nat.zero_add] at moved
  rw [moved, shift]
  split <;> simp

end Position

/-! ## Positions of issues -/

/-- An issue that is reported for an offset of a text, with line and column from one. -/
def Issue.IsAt (t : Text) (offset : Nat) (i : Issue) : Prop :=
  ∃ p : Position, p.IsAt t offset ∧ i.line = p.line + 1 ∧ i.column = p.column + 1

namespace Check

/-- What stands before an expression ends no line. -/
theorem endsLineAt_declaration (t : Text) {i : Nat} (h : i < declaration.length) :
    (declaration ++ t).endsLineAt i = false := by
  have none : ∀ i < declaration.length, declaration.endsLineAt i = false := by decide
  have noReturn : declaration[i]? ≠ some 13 := fun eq => absurd (List.mem_of_getElem? eq) (by decide)
  rw [Text.endsLineAt_append_left h (.inr (.inl noReturn)), none i h]

/-- In a parsed expression, the code ends its lines as it does alone. -/
theorem endsLineAt_expression (code : Text) {i : Nat} (h : i < code.length) :
    (wrapped .expression code).endsLineAt (declaration.length + i) = code.endsLineAt i := by
  rw [wrapped, List.append_assoc, Text.endsLineAt_append_right, Text.endsLineAt_append_left h (.inr (.inr (by decide)))]

theorem position_expression (code : Text) {n : Nat} (h : n ≤ code.length) :
    Position.ofOffset (wrapped .expression code) (declaration.length + n) =
      (Position.ofOffset code n).shift declaration.length := by
  refine Position.ofOffset_shift (fun i lt => ?_) fun i lt => endsLineAt_expression code (by omega)
  rw [wrapped, List.append_assoc, endsLineAt_declaration _ lt]

theorem position_before_expression (code : Text) {n : Nat} (h : n < declaration.length) :
    Position.ofOffset (wrapped .expression code) n = ⟨0, n⟩ := by
  have noEnd : ∀ i < n, (wrapped .expression code).endsLineAt i = false := fun i lt => by
    rw [wrapped, List.append_assoc, endsLineAt_declaration _ (by omega)]
  have moved := Position.ofOffset_shift (t := []) (n := 0) noEnd (by omega)
  rw [Nat.add_zero, Position.ofOffset_zero] at moved
  exact moved

/-- In a parsed module, a carriage return at the end of the code would be taken together with the line feed that
follows the code, and everything before it ends its lines as it does in the code alone. -/
theorem position_module {code : Text} {n : Nat} (h : n < code.length ∨ n = code.length ∧ code.getLast? ≠ some 13) :
    Position.ofOffset (wrapped .module code) n = Position.ofOffset code n := by
  refine Position.ofOffset_congr fun i lt => ?_
  have inside : i < code.length := by omega
  refine Text.endsLineAt_append_left inside ?_
  by_cases more : i + 1 < code.length
  · exact .inl more
  · refine .inr (.inl ?_)
    obtain ⟨-, noReturn⟩ := h.resolve_left (by omega)
    rwa [List.getLast?_eq_getElem?, show code.length - 1 = i by omega] at noReturn

/-- An issue refers to the code alone, if it was reported for the offset `start` of the parsed text. -/
structure RefersTo (mode : CheckMode) (code : Text) (start : Nat) (i : Issue) : Prop where
  /-- What is reported before an expression is moved to its start. -/
  before : mode = .expression → start < declaration.length → i.line = 1 ∧ i.column = 1
  expression : mode = .expression → declaration.length ≤ start → start ≤ declaration.length + code.length →
    i.IsAt code (start - declaration.length)
  module : mode = .module → start < code.length ∨ start = code.length ∧ code.getLast? ≠ some 13 → i.IsAt code start

theorem refersTo_issue (mode : CheckMode) (code : Text) {d : Diagnostic} {start : Nat} (h : d.start = some start) :
    RefersTo mode code start (issue mode (wrapped mode code) d) := by
  constructor
  · rintro rfl lt
    simp only [issue, h, position_before_expression code lt]
    simp
    omega
  · rintro rfl ge le
    obtain ⟨n, rfl⟩ := Nat.exists_eq_add_of_le ge
    rw [Nat.add_sub_cancel_left]
    refine ⟨_, Position.isAt_iff.mpr rfl, ?_⟩
    simp only [issue, h, position_expression code (Nat.le_of_add_le_add_left le), Position.shift]
    by_cases first : (Position.ofOffset code n).line = 0
    · simp [first]
    · simp [first]
  · rintro rfl inside
    refine ⟨_, Position.isAt_iff.mpr rfl, ?_⟩
    simp only [issue, h, position_module inside]
    simp

end Check

/-- **Reported positions refer to the code that is checked.** For every parser there is one issue for each of its error
diagnostics, in order, with its message. If the diagnostic is about an offset of the parsed text, the line and the
column of the issue are those of the corresponding offset in the code alone: in an expression for every offset from its
start to its end, in a module for every offset before its end, and for its end unless the last unit is a carriage
return. What is reported for an offset before an expression is placed at its start. -/
theorem issues_refer_to_code (parser : SyntaxParser) (mode : CheckMode) (code : Text) :
    List.Forall₂
      (fun d i => i.message = d.message.text ∧ ∀ start, d.start = some start → Check.RefersTo mode code start i)
      ((parser (Check.wrapped mode code)).filter fun d => d.category = .error) (Check.issues parser mode code) := by
  rw [Check.issues, List.forall₂_map_right_iff]
  refine List.forall₂_same.mpr fun d _ => ⟨?_, fun start h => Check.refersTo_issue mode code h⟩
  rw [Check.issue]
  split <;> rfl

-- at the end of a module that ends in a carriage return, the line of the code alone would be the next one
example : (Check.issue .module (Check.wrapped .module "a\r") ⟨.node "x" [], .error, some 2⟩).line = 1 ∧
    (Position.ofOffset "a\r" 2).line + 1 = 2 := by decide

end ExprScript
