import ExprScript.Proofs.Text.Basic
import ExprScript.Text.Quoted
import Mathlib.Data.List.Chain

/-!
# Quoted text reads back

- `Quoted.read_escape`: what `Quoted.escape` writes between quotes is read as the text that it was written for,
  whatever its units are. A unit is read back from its own escape (`Quoted.read_escapeUnit`), and the two halves of a
  surrogate pair as they stand;
- `Quoted.visible_encode`: no unit of a quoted text is below U+0020, so it stays on one line;
- `Quoted.isChain_escape`: between the quotes, a quote stands only after a backslash.
-/

namespace ExprScript.Quoted

/-! ## Reading back -/

section Reading

variable {u letter : CodeUnit} (rest : Text)

/-- A unit in front of what is read. -/
def readAfter (u : CodeUnit) (rest : Text) : Option (Text × Text) := (read rest).map fun r => (u :: r.1, r.2)

theorem hexValue?_hexDigit {n : Nat} (h : n < 16) : (hexDigit n).hexValue? = some n := by
  have digits : ∀ n : Fin 16, (hexDigit n).hexValue? = some n.val := by decide
  exact digits ⟨n, h⟩

/-- Four hexadecimal digits name the unit that they were written for. -/
theorem hexUnit?_hexDigit (u : CodeUnit) :
    hexUnit? (hexDigit (u.toNat / 0x1000)) (hexDigit (u.toNat / 0x100 % 0x10)) (hexDigit (u.toNat / 0x10 % 0x10))
      (hexDigit (u.toNat % 0x10)) = some u := by
  have bound := u.toNat_lt
  have value : ((u.toNat / 0x1000 * 16 + u.toNat / 0x100 % 0x10) * 16 + u.toNat / 0x10 % 0x10) * 16 +
      u.toNat % 0x10 = u.toNat := by omega
  rw [hexUnit?, hexValue?_hexDigit (by omega), hexValue?_hexDigit (by omega), hexValue?_hexDigit (by omega),
    hexValue?_hexDigit (by omega)]
  simp only [Option.bind_eq_bind, Option.bind_some, value, Option.pure_def, Option.some.injEq]
  exact UInt16.ofNat_toNat

/-- A short escape is undone, and its letter is seen. -/
theorem unescape?_of_shortEscape? (h : shortEscape? u = some letter) :
    letter ≠ unit 'u' ∧ unescape? letter = some u ∧ 0x20 ≤ letter := by
  unfold shortEscape? at h
  repeat' split at h
  · rename_i own
    obtain rfl := Option.some.inj h
    rcases Bool.or_eq_true_iff.mp own with own | own <;> rw [of_decide_eq_true own] <;> decide
  all_goals
    cases h
    try subst u
    try decide

theorem read_quote : read (unit '\"' :: rest) = some ([], rest) := by
  rw [read.eq_def]
  simp only [if_true]

/-- A unit that stands for itself. -/
theorem read_cons_plain (quote : u ≠ unit '\"') (visible : ¬u < 0x20) (backslash : u ≠ unit '\\') :
    read (u :: rest) = readAfter u rest := by
  rw [read.eq_def, readAfter]
  simp only [if_neg quote, if_neg visible, if_neg backslash]
  cases read rest <;> rfl

theorem read_short (h : unescape? letter = some u) (short : letter ≠ unit 'u') :
    read (unit '\\' :: letter :: rest) = readAfter u rest := by
  have code : unit '\\' ≠ unit '\"' ∧ ¬unit '\\' < 0x20 := by decide
  rw [read.eq_def, readAfter]
  simp only [if_neg code.1, if_neg code.2, if_true, if_neg short, h]
  cases read rest <;> rfl

theorem read_escapeHex (u : CodeUnit) : read (escapeHex u ++ rest) = readAfter u rest := by
  have code : unit '\\' ≠ unit '\"' ∧ ¬unit '\\' < 0x20 := by decide
  rw [escapeHex, read.eq_def, readAfter]
  simp only [List.cons_append, List.nil_append, if_neg code.1, if_neg code.2, if_true, hexUnit?_hexDigit]
  cases read rest <;> rfl

/-- **The escape of a unit** is read as the unit. -/
theorem read_escapeUnit (u : CodeUnit) : read (escapeUnit u ++ rest) = readAfter u rest := by
  unfold escapeUnit
  cases short : shortEscape? u with
  | some letter =>
    obtain ⟨ne, undone, -⟩ := unescape?_of_shortEscape? short
    exact read_short rest undone ne
  | none =>
    simp only
    split
    · exact read_escapeHex rest u
    · rename_i plain
      rw [Bool.or_eq_true, Bool.or_eq_true, not_or, not_or, decide_eq_true_iff] at plain
      refine read_cons_plain rest ?_ plain.1.1 ?_
      · rintro rfl
        cases short
      · rintro rfl
        cases short

end Reading

theorem visible_of_isHigh {u : CodeUnit} (h : u.isHigh = true) : 0x20 ≤ u := by
  simp only [CodeUnit.isHigh, Bool.and_eq_true, decide_eq_true_eq, UInt16.le_iff_toNat_le] at h ⊢
  have high : 0xD800 ≤ u.toNat := h.1
  exact Nat.le_trans (by decide) high

theorem visible_of_isLow {u : CodeUnit} (h : u.isLow = true) : 0x20 ≤ u := by
  simp only [CodeUnit.isLow, Bool.and_eq_true, decide_eq_true_eq, UInt16.le_iff_toNat_le] at h ⊢
  have low : 0xDC00 ≤ u.toNat := h.1
  exact Nat.le_trans (by decide) low

/-- The halves of a surrogate pair stand for themselves. -/
theorem read_pair {u v : CodeUnit} (high : u.isHigh = true) (low : v.isLow = true) (rest : Text) :
    read (u :: v :: rest) = (read rest).map fun r => (u :: v :: r.1, r.2) := by
  have second : read (v :: rest) = readAfter v rest := by
    refine read_cons_plain rest ?_ (UInt16.not_lt.mpr (visible_of_isLow low)) ?_
    · rintro rfl
      cases low
    · rintro rfl
      cases low
  have first : read (u :: v :: rest) = readAfter u (v :: rest) := by
    refine read_cons_plain _ ?_ (UInt16.not_lt.mpr (visible_of_isHigh high)) ?_
    · rintro rfl
      cases high
    · rintro rfl
      cases high
  rw [first, readAfter, second, readAfter, Option.map_map]
  rfl

/-- **What is written between quotes** is read as the text that it was written for. -/
theorem read_escape (t rest : Text) : read (escape t ++ unit '\"' :: rest) = some (t, rest) := by
  fun_induction escape t with
  | case1 => exact read_quote rest
  | case2 u =>
    rw [read_escapeUnit, readAfter, read_quote]
    rfl
  | case3 u v tail pair ih =>
    rw [Bool.and_eq_true] at pair
    rw [List.cons_append, List.cons_append, read_pair pair.1 pair.2, ih]
    rfl
  | case4 u v tail single ih =>
    rw [List.append_assoc, read_escapeUnit, readAfter, ih]
    rfl

/-! ## Units that are seen -/

/-- A text without units below U+0020. -/
def IsVisible (t : Text) : Prop := ∀ u ∈ t, 0x20 ≤ u

theorem visible_of_all {t : Text} (h : t.all (fun u => 0x20 ≤ u) = true) : IsVisible t :=
  fun u mem => of_decide_eq_true (List.all_eq_true.mp h u mem)

theorem visible_hexDigit {n : Nat} (h : n < 16) : 0x20 ≤ hexDigit n := by
  have digits : ∀ n : Fin 16, 0x20 ≤ hexDigit n.val := by decide
  exact digits ⟨n, h⟩

theorem visible_escapeUnit (u : CodeUnit) : IsVisible (escapeUnit u) := by
  have bound := u.toNat_lt
  have first : u.toNat / 0x1000 < 16 := by omega
  unfold escapeUnit
  cases short : shortEscape? u with
  | some letter =>
    obtain ⟨-, -, seen⟩ := unescape?_of_shortEscape? short
    exact List.forall_mem_cons.mpr ⟨by decide, by simpa using seen⟩
  | none =>
    simp only
    split
    · simp only [IsVisible, escapeHex, List.forall_mem_cons]
      exact ⟨by decide, by decide, visible_hexDigit first, visible_hexDigit (Nat.mod_lt _ (by decide)),
        visible_hexDigit (Nat.mod_lt _ (by decide)), visible_hexDigit (Nat.mod_lt _ (by decide)), by simp⟩
    · rename_i plain
      rw [Bool.or_eq_true, Bool.or_eq_true, not_or, not_or, decide_eq_true_iff] at plain
      exact List.forall_mem_singleton.mpr (UInt16.not_lt.mp plain.1.1)

theorem visible_escape (t : Text) : IsVisible (escape t) := by
  fun_induction escape t with
  | case1 => exact fun u mem => absurd mem List.not_mem_nil
  | case2 u => exact visible_escapeUnit u
  | case3 u v rest pair ih =>
    rw [Bool.and_eq_true] at pair
    exact List.forall_mem_cons.mpr
      ⟨visible_of_isHigh pair.1, List.forall_mem_cons.mpr ⟨visible_of_isLow pair.2, ih⟩⟩
  | case4 u v rest single ih => exact List.forall_mem_append.mpr ⟨visible_escapeUnit u, ih⟩

/-- **A quoted text stays on one line,** and has no other unit below U+0020 either. -/
theorem visible_encode (t : Text) : IsVisible (encode t) := by
  refine List.forall_mem_append.mpr ⟨List.forall_mem_cons.mpr ⟨by decide, visible_escape t⟩, ?_⟩
  exact List.forall_mem_singleton.mpr (by decide)

/-! ## Where quotes stand -/

/-- Two neighbours of which the second may be a quote only after a backslash. -/
def Guards (u v : CodeUnit) : Prop := v = unit '\"' → u = unit '\\'

theorem hexDigit_ne_quote {n : Nat} (h : n < 16) : hexDigit n ≠ unit '\"' := by
  have digits : ∀ n : Fin 16, hexDigit n.val ≠ unit '\"' := by decide
  exact digits ⟨n, h⟩

/-- The escape of a unit does not start with a quote, and a quote in it stands after a backslash. -/
theorem escapeUnit_quotes (u : CodeUnit) :
    (escapeUnit u).head? ≠ some (unit '\"') ∧ (escapeUnit u).IsChain Guards ∧ escapeUnit u ≠ [] := by
  have bound := u.toNat_lt
  have first : u.toNat / 0x1000 < 16 := by omega
  unfold escapeUnit
  cases short : shortEscape? u with
  | some letter => exact ⟨by simp; decide, by simp [Guards], by simp⟩
  | none =>
    simp only
    split
    · have noQuote {n : Nat} (h : n < 16) (u : CodeUnit) : Guards u (hexDigit n) :=
        fun eq => absurd eq (hexDigit_ne_quote h)
      refine ⟨by simp [escapeHex]; decide, ?_, by simp [escapeHex]⟩
      simp only [escapeHex, List.isChain_cons_cons, List.isChain_singleton, and_true]
      exact ⟨fun _ => rfl, noQuote first _, noQuote (Nat.mod_lt _ (by decide)) _,
        noQuote (Nat.mod_lt _ (by decide)) _, noQuote (Nat.mod_lt _ (by decide)) _⟩
    · refine ⟨?_, .singleton u, by simp⟩
      rintro ⟨⟩
      cases short

theorem head?_escape (t : Text) : (escape t).head? ≠ some (unit '\"') := by
  fun_induction escape t with
  | case1 => simp
  | case2 u => exact (escapeUnit_quotes u).1
  | case3 u v rest pair ih =>
    rintro ⟨⟩
    cases pair
  | case4 u v rest single ih =>
    obtain ⟨first, -, nonempty⟩ := escapeUnit_quotes u
    rwa [List.head?_append_of_ne_nil _ nonempty]

/-- **Between the quotes,** a quote stands only after a backslash. -/
theorem isChain_escape (t : Text) : (escape t).IsChain Guards := by
  fun_induction escape t with
  | case1 => exact .nil
  | case2 u => exact (escapeUnit_quotes u).2.1
  | case3 u v rest pair ih =>
    rw [Bool.and_eq_true] at pair
    have noQuote : v ≠ unit '\"' := by
      rintro rfl
      cases pair.2
    refine .cons_cons (fun eq => absurd eq noQuote) (ih.cons fun first mem eq => ?_)
    exact absurd (eq ▸ Option.mem_def.mp mem) (head?_escape rest)
  | case4 u v rest single ih =>
    refine (escapeUnit_quotes u).2.1.append ih fun _ _ first mem eq => ?_
    exact absurd (eq ▸ Option.mem_def.mp mem) (head?_escape (v :: rest))

end ExprScript.Quoted
