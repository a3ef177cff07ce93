import ExprScript.Layout.Builder

/-!
# Documents

A `Document` is a text of which every unit knows the depth of the line that it was written on. Indentation is put before
the first unit of a line, as often as that unit is deep, so a document is what a text is before its indentation is
chosen.

- `Document.text` is the text of a document. Where lines start does not depend on the indentation
  (`Document.startsLineAfter_text`), so the text of two documents is that of the first and then that of the second
  (`Document.text_append`);
- `Document.indented_text`: putting more indentation before the lines of a finished text takes its document deeper.
-/

namespace ExprScript

namespace Layout

/-! ## Indentation -/

/-- The indentation of a depth. -/
def pad (indentation : Text) (depth : Nat) : Text := (List.replicate depth indentation).flatten

@[simp]
theorem pad_zero (indentation : Text) : pad indentation 0 = [] := rfl

theorem pad_add (indentation : Text) (m n : Nat) :
    pad indentation (m + n) = pad indentation m ++ pad indentation n := by
  rw [pad, ← List.replicate_append_replicate, List.flatten_append, pad, pad]

theorem newline_notMem_pad {indentation : Text} (h : newline ∉ indentation) (depth : Nat) :
    newline ∉ pad indentation depth := by
  intro mem
  obtain ⟨t, ht, mem⟩ := List.mem_flatten.mp mem
  exact h (List.eq_of_mem_replicate ht ▸ mem)

/-- A text without line ends that stands in the middle of a line is left as it is. -/
theorem indented_inline (p : Text) {s : Text} (h : newline ∉ s) (t : Text) :
    indented p false (s ++ t) = s ++ indented p false t := by
  induction s with
  | nil => rfl
  | cons c rest ih =>
    obtain ⟨first, others⟩ := not_or.mp (mt List.mem_cons.mpr h)
    rw [List.cons_append, indented, if_neg (Ne.symm first)]
    simp [ih others]

/-- A line that is not empty gets its indentation, whatever it starts with. -/
theorem indented_line (p : Text) {s : Text} (h : newline ∉ s) {u : CodeUnit} (hu : u ≠ newline) (t : Text) :
    indented p true (s ++ u :: t) = p ++ (s ++ u :: indented p false t) := by
  cases s with
  | nil => simp [indented, hu]
  | cons c rest =>
    obtain ⟨first, others⟩ := not_or.mp (mt List.mem_cons.mpr h)
    have inner : indented p false (rest ++ u :: t) = rest ++ u :: indented p false t := by
      rw [indented_inline p others, indented, if_neg hu]
      simp
    rw [List.cons_append, indented, if_neg (Ne.symm first), if_pos rfl, inner, List.cons_append]

theorem startsLineAfter_append (atStart : Bool) (s t : Text) :
    startsLineAfter atStart (s ++ t) = startsLineAfter (startsLineAfter atStart s) t := by
  induction s generalizing atStart with
  | nil => rfl
  | cons c rest ih => exact ih _

/-- Indenting one text and then another. -/
theorem indented_append (p : Text) (atStart : Bool) (x y : Text) :
    indented p atStart (x ++ y) = indented p atStart x ++ indented p (startsLineAfter atStart x) y := by
  induction x generalizing atStart with
  | nil => rfl
  | cons c rest ih =>
    rw [List.cons_append, indented, indented, startsLineAfter]
    by_cases hc : c = newline
    · simp [hc, ih]
    · have inside : (c == newline) = false := beq_eq_false_iff_ne.mpr hc
      cases atStart <;> simp [hc, inside, ih]

end Layout

open Layout

/-- A text of which every unit knows the depth of the line that it was written on. -/
abbrev Document := List (Nat × CodeUnit)

namespace Document

/-- A text at the outermost depth. -/
def ofText (t : Text) : Document := t.map (0, ·)

/-- The units of a document. -/
def units (d : Document) : Text := d.map Prod.snd

/-- A document that is written on lines of a depth. -/
def deeper (depth : Nat) (d : Document) : Document := d.map fun (own, u) => (depth + own, u)

/-- The text of a document: the first unit of a line has its indentation before it. -/
def text (indentation : Text) : Bool → Document → Text
  | _, [] => []
  | atStart, (depth, u) :: rest =>
    if u = newline then newline :: text indentation true rest
    else if atStart then pad indentation depth ++ u :: text indentation false rest
    else u :: text indentation false rest

/-- A document that starts at the outermost depth. -/
def IsFlush (d : Document) : Prop := ∀ first ∈ d.head?, first.1 = 0

section Algebra

variable {x y : Document}

theorem units_cons (depth : Nat) (u : CodeUnit) (d : Document) : units ((depth, u) :: d) = u :: units d := rfl

theorem units_ofText (t : Text) : (ofText t).units = t := by
  simp [units, ofText, Function.comp_def]

@[simp]
theorem units_append (x y : Document) : (x ++ y).units = x.units ++ y.units := List.map_append

@[simp]
theorem units_deeper (n : Nat) (d : Document) : (d.deeper n).units = d.units := by simp [units, deeper]

@[simp]
theorem deeper_append (n : Nat) (x y : Document) : (x ++ y).deeper n = x.deeper n ++ y.deeper n := List.map_append

@[simp]
theorem deeper_zero (d : Document) : d.deeper 0 = d := by simp [deeper]

theorem deeper_deeper (m n : Nat) (d : Document) : (d.deeper n).deeper m = d.deeper (m + n) := by
  simp [deeper, Nat.add_assoc]

theorem IsFlush.nil : IsFlush [] := by simp [IsFlush]

theorem IsFlush.ofText (t : Text) : IsFlush (ofText t) := by
  cases t <;> simp [IsFlush, Document.ofText]

theorem IsFlush.append (hx : x.IsFlush) (hy : y.IsFlush) : (x ++ y).IsFlush := by
  cases x with
  | nil => exact hy
  | cons first rest => exact hx

theorem IsFlush.flatMap {α : Type} {f : α → Document} {as : List α} (h : ∀ a ∈ as, (f a).IsFlush) :
    IsFlush (as.flatMap f) := by
  induction as with
  | nil => exact .nil
  | cons a rest ih =>
    obtain ⟨first, others⟩ := List.forall_mem_cons.mp h
    rw [List.flatMap_cons]
    exact first.append (ih others)

end Algebra

section Texts

variable {indentation : Text}

theorem startsLineAfter_units_cons (atStart : Bool) (depth : Nat) (u : CodeUnit) (d : Document) :
    startsLineAfter atStart (units ((depth, u) :: d)) = startsLineAfter (u == newline) (units d) := rfl

theorem text_append (indentation : Text) (atStart : Bool) (x y : Document) :
    (x ++ y).text indentation atStart =
      x.text indentation atStart ++ y.text indentation (startsLineAfter atStart x.units) := by
  induction x generalizing atStart with
  | nil => rfl
  | cons first rest ih =>
    obtain ⟨depth, u⟩ := first
    rw [List.cons_append, text, text, startsLineAfter_units_cons]
    by_cases hu : u = newline
    · simp [hu, ih]
    · have inside : (u == newline) = false := beq_eq_false_iff_ne.mpr hu
      cases atStart <;> simp [hu, inside, ih]

/-- Indentation does not change where lines start. -/
theorem startsLineAfter_text (atStart atStart' : Bool) (d : Document) :
    startsLineAfter atStart (d.text indentation atStart') = startsLineAfter atStart d.units := by
  induction d generalizing atStart atStart' with
  | nil => rfl
  | cons first rest ih =>
    obtain ⟨depth, u⟩ := first
    rw [text, startsLineAfter_units_cons]
    split
    · rename_i hu
      rw [startsLineAfter, ih, hu]
    · split
      · rw [startsLineAfter_append, startsLineAfter, ih]
      · rw [startsLineAfter, ih]

/-- A document that starts at the outermost depth reads the same at the start of a line and inside one. -/
theorem IsFlush.text_eq {d : Document} (h : d.IsFlush) (atStart atStart' : Bool) :
    d.text indentation atStart = d.text indentation atStart' := by
  cases d with
  | nil => rfl
  | cons first rest =>
    obtain ⟨depth, u⟩ := first
    obtain rfl : depth = 0 := h _ rfl
    simp [text]

@[simp]
theorem text_ofText (atStart : Bool) (t : Text) : (ofText t).text indentation atStart = t := by
  induction t generalizing atStart with
  | nil => rfl
  | cons c rest ih =>
    have tail (b : Bool) : text indentation b (rest.map (0, ·)) = rest := ih b
    rw [ofText, List.map_cons, text]
    by_cases hc : c = newline <;> simp [hc, tail]

/-- Without indentation, the text of a document is its units. -/
theorem text_nil (atStart : Bool) (d : Document) : d.text [] atStart = d.units := by
  induction d generalizing atStart with
  | nil => rfl
  | cons first rest ih =>
    obtain ⟨depth, u⟩ := first
    rw [text, units_cons, ih, ih]
    by_cases hu : u = newline <;> simp [hu, pad]

/-- The units of a document are all in its text. -/
theorem mem_text_of_mem_units {u : CodeUnit} {d : Document} (h : u ∈ d.units) (atStart : Bool) :
    u ∈ d.text indentation atStart := by
  induction d generalizing atStart with
  | nil => exact h
  | cons first rest ih =>
    obtain ⟨depth, v⟩ := first
    rw [text]
    rcases List.mem_cons.mp h with rfl | h
    · split
      · rename_i hv
        exact List.mem_cons.mpr (.inl hv)
      · split <;> simp
    · split
      · exact List.mem_cons_of_mem _ (ih h true)
      · split
        · exact List.mem_append_right _ (List.mem_cons_of_mem _ (ih h false))
        · exact List.mem_cons_of_mem _ (ih h false)

/-- Inside a line, a document without line ends is only its units. -/
theorem text_of_no_newline {d : Document} (h : newline ∉ d.units) : d.text indentation false = d.units := by
  induction d with
  | nil => rfl
  | cons first rest ih =>
    obtain ⟨depth, u⟩ := first
    obtain ⟨inside, others⟩ := not_or.mp (mt List.mem_cons.mpr h)
    have hu : u ≠ newline := Ne.symm inside
    rw [text, if_neg hu, if_neg Bool.false_ne_true, ih others]
    rfl

/-- **Indenting the lines of a finished text** takes its document deeper. -/
theorem indented_text (h : newline ∉ indentation) (n : Nat) (atStart : Bool) (d : Document) :
    indented (pad indentation n) atStart (d.text indentation atStart) = (d.deeper n).text indentation atStart := by
  induction d generalizing atStart with
  | nil => rfl
  | cons first rest ih =>
    obtain ⟨depth, u⟩ := first
    have deeper_cons : deeper n ((depth, u) :: rest) = (n + depth, u) :: deeper n rest := rfl
    rw [deeper_cons, text, text]
    by_cases hu : u = newline
    · rw [if_pos hu, if_pos hu, indented, if_pos rfl, ih]
    · rw [if_neg hu, if_neg hu]
      cases atStart with
      | true =>
        rw [if_pos rfl, if_pos rfl, indented_line _ (newline_notMem_pad h depth) hu, ih, pad_add, List.append_assoc]
      | false => simp [indented, hu, ih]

end Texts

end Document

end ExprScript
