import ExprScript.Text.Basic

/-!
# Facts about texts

- the texts of two strings are equal only if the strings are (`Text.ofString_inj`), so that fixed spellings are told
  apart as string literals;
- joining joined parts is joining all of them (`Text.join_flatten`);
- a number in decimal consists of digits (`Text.isDigit_of_mem_ofNat`).
-/

namespace ExprScript

namespace CodeUnit

/-- A character is no surrogate. -/
theorem char_range (c : Char) : c.toNat < 0xD800 ∨ 0xDFFF < c.toNat ∧ c.toNat < 0x110000 := by
  have h := c.valid
  simpa [UInt32.isValidChar, Nat.isValidChar] using h

/-- Small naturals keep their value as code units. -/
theorem toNat_toUInt16 {n : Nat} (h : n < 0x10000) : n.toUInt16.toNat = n := by
  simpa using h

/-- A code point has at least one unit. -/
theorem ofCodePoint_ne_nil (n : Nat) : ofCodePoint n ≠ [] := by
  unfold ofCodePoint
  split <;> simp

/-- The units of characters can be read off the front of a text in one way only. -/
theorem ofCodePoint_append_inj {a b : Char} {s t : Text}
    (h : ofCodePoint a.toNat ++ s = ofCodePoint b.toNat ++ t) : a = b ∧ s = t := by
  have ha := char_range a
  have hb := char_range b
  have eq_of_toNat : a.toNat = b.toNat → a = b := fun e => Char.toNat_inj.mp e
  unfold ofCodePoint at h
  split at h <;> split at h
  all_goals
    simp only [List.cons_append, List.nil_append, List.cons.injEq, ← UInt16.toNat_inj] at h
    repeat rw [toNat_toUInt16 (by omega)] at h
  · exact ⟨eq_of_toNat h.1, h.2⟩
  · omega
  · omega
  · exact ⟨eq_of_toNat (by omega), h.2.2⟩

end CodeUnit

namespace Text

/-- Different lists of characters have different texts. -/
theorem ofChars_inj : ∀ {cs ds : List Char}, ofChars cs = ofChars ds → cs = ds
  | [], [], _ => rfl
  | [], d :: ds, h => absurd (List.append_eq_nil_iff.mp h.symm).1 (CodeUnit.ofCodePoint_ne_nil d.toNat)
  | c :: cs, [], h => absurd (List.append_eq_nil_iff.mp h).1 (CodeUnit.ofCodePoint_ne_nil c.toNat)
  | c :: cs, d :: ds, h => by
    simp only [ofChars, List.flatMap_cons] at h
    obtain ⟨rfl, rest⟩ := CodeUnit.ofCodePoint_append_inj h
    rw [ofChars_inj rest]

/-- Different strings have different texts. -/
@[simp]
theorem ofString_inj {s t : String} : ofString s = ofString t ↔ s = t :=
  ⟨fun h => String.toList_inj.mp (ofChars_inj h), fun h => h ▸ rfl⟩

/-! ## Joined parts -/

@[simp]
theorem join_nil (separator : Text) : join separator [] = [] := rfl

@[simp]
theorem join_singleton (separator t : Text) : join separator [t] = t := List.intercalate_singleton

theorem join_cons {separator t : Text} {ts : List Text} (h : ts ≠ []) :
    join separator (t :: ts) = t ++ separator ++ join separator ts :=
  List.intercalate_cons_of_ne_nil h

/-- What stands before the first part stands before all that is joined. -/
theorem join_append_cons (separator s t : Text) (ts : List Text) :
    join separator ((s ++ t) :: ts) = s ++ join separator (t :: ts) := by
  cases ts with
  | nil => rw [join_singleton, join_singleton]
  | cons t' ts =>
    have more : t' :: ts ≠ [] := List.cons_ne_nil t' ts
    rw [join_cons more, join_cons more]
    simp only [List.append_assoc]

/-- Two joined lists with a separator between them are joined as one. -/
theorem join_append (separator : Text) : ∀ {ss ts : List Text}, ss ≠ [] → ts ≠ [] →
    join separator (ss ++ ts) = join separator ss ++ separator ++ join separator ts
  | [], _, hs, _ => absurd rfl hs
  | [s], _, _, ht => by rw [List.singleton_append, join_cons ht, join_singleton]
  | s :: s' :: ss, ts, _, ht => by
    have tail : join separator (s' :: ss ++ ts) = join separator (s' :: ss) ++ separator ++ join separator ts :=
      join_append separator (by simp) ht
    have front : join separator (s :: s' :: ss) = s ++ separator ++ join separator (s' :: ss) := join_cons (by simp)
    rw [List.cons_append, join_cons (by simp), tail, front]
    simp only [List.append_assoc]

/-- Joining lists that were joined themselves, none of them empty, is joining all their parts. -/
theorem join_flatten (separator : Text) : ∀ {tss : List (List Text)}, (∀ ts ∈ tss, ts ≠ []) →
    join separator (tss.map (join separator)) = join separator tss.flatten
  | [], _ => rfl
  | [ts], _ => by simp
  | ts :: ts' :: rest, h => by
    have ht : ts ≠ [] := h ts (by simp)
    have ht' : ts' ≠ [] := h ts' (by simp)
    have hrest : ∀ ts ∈ ts' :: rest, ts ≠ [] := fun ts mem => h ts (List.mem_cons_of_mem _ mem)
    rw [List.map_cons, join_cons (by simp), join_flatten separator hrest, List.flatten_cons (l := ts),
      join_append separator ht (by simp [ht'])]

/-! ## Numbers -/

/-- A natural number in decimal consists of digits. -/
theorem isDigit_of_mem_ofNat {n : Nat} {u : CodeUnit} (h : u ∈ ofNat n) : u.isDigit = true := by
  unfold ofNat ofChars at h
  obtain ⟨c, hc, hu⟩ := List.mem_flatMap.mp h
  have digit := Nat.isDigit_of_mem_toDigits (by omega) (by omega) hc
  have range : 48 ≤ c.toNat ∧ c.toNat ≤ 57 := by
    simp only [Char.isDigit, Bool.and_eq_true, decide_eq_true_eq, ge_iff_le, UInt32.le_iff_toNat_le] at digit
    exact digit
  have value : u.toNat = c.toNat := by
    rw [CodeUnit.ofCodePoint, if_pos (by omega), List.mem_singleton] at hu
    rw [hu, CodeUnit.toNat_toUInt16 (by omega)]
  simp only [CodeUnit.isDigit, unit, Bool.and_eq_true, decide_eq_true_eq, UInt16.le_iff_toNat_le, value]
  exact range

end Text

end ExprScript
