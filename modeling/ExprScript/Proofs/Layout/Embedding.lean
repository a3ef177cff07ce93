import ExprScript.Proofs.Layout.Builder

/-!
# Code in code

A function from code to code that writes its argument exactly once, at some depth.

- `Embeds F` says so of `F`: the document of `F c` is that of `c`, taken to a depth, between two documents that do not
  depend on `c`. `Encloses F` says in addition that the line on which `c` ends goes on after it. Lists of lines have the
  same notion (`LinesEnclose`), and each way to put code together has a rule;
- `Embeds.toText_eq`: in terms of texts, the text of `c` stands between two texts, with its lines indented once more
  (`Layout.resumed`). If it does not start or end with a line end, these are the lines after the first one
  (`Layout.reindented`, `Layout.resumed_eq`).
-/

namespace ExprScript

open Layout

namespace Layout

/-- A text with `p` after every line end that a line with something on it follows. -/
def reindented (p : Text) : Text → Text
  | [] => []
  | [c] => [c]
  | c :: c' :: rest =>
    if c = newline ∧ c' ≠ newline then c :: (p ++ reindented p (c' :: rest)) else c :: reindented p (c' :: rest)

/-- Indenting a text again, from the middle of a line on. -/
theorem reindented_eq (p : Text) : ∀ t : Text, reindented p t = indented p false t
  | [] => rfl
  | [c] => by by_cases hc : c = newline <;> simp [reindented, indented, hc]
  | c :: c' :: rest => by
    have ih := reindented_eq p (c' :: rest)
    rw [reindented, ih]
    by_cases hc : c = newline <;> by_cases hc' : c' = newline <;> simp [indented, hc, hc']

/-- A text on lines that get `p` before them, up to where the line that it ends on goes on. -/
def resumed (p : Text) (atStart : Bool) (t : Text) : Text :=
  indented p atStart t ++ if startsLineAfter atStart t then p else []

/-- If a text does not start or end with a line end, only the lines after its first one matter. -/
theorem resumed_eq (p : Text) (atStart : Bool) {t : Text} (first : t.head? ≠ some newline)
    (last : t.getLast? ≠ some newline) : resumed p atStart t = (if atStart then p else []) ++ reindented p t := by
  rw [resumed, reindented_eq]
  obtain rfl | ⟨front, u, rfl⟩ := List.eq_nil_or_concat t
  · cases atStart <;> simp [indented, startsLineAfter]
  · have inside : startsLineAfter atStart (front.concat u) = false := by
      rw [List.concat_eq_append] at last ⊢
      rw [startsLineAfter_append]
      simpa [startsLineAfter] using last
    obtain ⟨c, rest, eq⟩ : ∃ c rest, front.concat u = c :: rest := List.exists_cons_of_ne_nil (by simp)
    rw [inside, eq]
    have hc : c ≠ newline := fun hc => first (by rw [eq, hc, List.head?_cons])
    cases atStart <;> simp [indented, hc]

end Layout

/-! ## Documents that go on with a line -/

namespace Document

/-- A document that goes on with a line of a depth. -/
def GoesOn (depth : Nat) (d : Document) : Prop := ∃ u rest, d = (depth, u) :: rest ∧ u ≠ newline

variable {depth : Nat} {d : Document} {indentation : Text}

theorem GoesOn.append (h : d.GoesOn depth) (x : Document) : GoesOn depth (d ++ x) := by
  obtain ⟨u, rest, rfl, hu⟩ := h
  exact ⟨u, rest ++ x, rfl, hu⟩

theorem GoesOn.deeper (h : d.GoesOn depth) (n : Nat) : (d.deeper n).GoesOn (n + depth) := by
  obtain ⟨u, rest, rfl, hu⟩ := h
  exact ⟨u, Document.deeper n rest, rfl, hu⟩

/-- At the start of a line, a document that goes on with it differs by the indentation only. -/
theorem GoesOn.text_eq (h : d.GoesOn depth) (atStart : Bool) :
    d.text indentation atStart = (if atStart then pad indentation depth else []) ++ d.text indentation false := by
  obtain ⟨u, rest, rfl, hu⟩ := h
  cases atStart <;> simp [text, hu]

end Document

/-! ## Functions of code -/

/-- The code is written once, at a depth, and the line on which it ends goes on after it, or nothing follows it. -/
def Embeds (F : Code → Code) : Prop :=
  ∃ before depth after, (∀ c, (F c).document = before ++ c.document.deeper depth ++ after) ∧
    (depth = 0 ∧ after = [] ∨ after.GoesOn depth)

/-- The code is written once, at a depth, and the line on which it ends goes on after it. -/
def Encloses (F : Code → Code) : Prop :=
  ∃ before depth after, (∀ c, (F c).document = before ++ c.document.deeper depth ++ after) ∧ after.GoesOn depth

/-- The code is written once among lines, at a depth that counts from theirs, and its last line goes on after it. -/
def LinesEnclose (G : Code → List Line) : Prop :=
  ∃ (before : Nat → Document) (depth : Nat) (after : Nat → Document), ∀ level,
    (∀ c, Line.documents level (G c) = before level ++ c.document.deeper (level + depth) ++ after level) ∧
      (after level).GoesOn (level + depth)

/-- Whether a text starts in the middle of a line. -/
def Text.startsInline (t : Text) : Bool := t.head?.any (· != newline)

theorem Document.goesOn_ofText {t : Text} (h : t.startsInline = true) : (Document.ofText t).GoesOn 0 := by
  cases t with
  | nil => simp [Text.startsInline] at h
  | cons u rest => exact ⟨u, Document.ofText rest, rfl, by simpa [Text.startsInline] using h⟩

variable {F G : Code → Code}

theorem Encloses.embeds (h : Encloses F) : Embeds F := by
  obtain ⟨before, depth, after, eq, goesOn⟩ := h
  exact ⟨before, depth, after, eq, .inr goesOn⟩

theorem Embeds.hole : Embeds fun c => c := ⟨[], 0, [], by simp, .inl ⟨rfl, rfl⟩⟩

/-- What embeds code still does so between two documents, if the second one can go on with its line. -/
theorem Embeds.between (h : Embeds F) {x y : Document} (eq : ∀ c, (G c).document = x ++ (F c).document ++ y)
    (next : y = [] ∨ y.GoesOn 0) : Embeds G := by
  obtain ⟨before, depth, after, inner, last⟩ := h
  refine ⟨x ++ before, depth, after ++ y, by simp [eq, inner], ?_⟩
  rcases last with ⟨rfl, rfl⟩ | goesOn
  · exact next.imp_left fun empty => ⟨rfl, empty⟩
  · exact .inr (goesOn.append y)

/-- What embeds code encloses it if the document after it goes on with its line. -/
theorem Embeds.enclosed (h : Embeds F) {x y : Document} (eq : ∀ c, (G c).document = x ++ (F c).document ++ y)
    (next : y.GoesOn 0) : Encloses G := by
  obtain ⟨before, depth, after, inner, last⟩ := h
  refine ⟨x ++ before, depth, after ++ y, by simp [eq, inner], ?_⟩
  rcases last with ⟨rfl, rfl⟩ | goesOn
  · exact next
  · exact goesOn.append y

/-- What encloses code still does so between any two documents. -/
theorem Encloses.between (h : Encloses F) {x y : Document} (eq : ∀ c, (G c).document = x ++ (F c).document ++ y) :
    Encloses G := by
  obtain ⟨before, depth, after, inner, goesOn⟩ := h
  exact ⟨x ++ before, depth, after ++ y, by simp [eq, inner], goesOn.append y⟩

/-- What embeds one hole in another embeds it at the sum of the depths. -/
theorem Encloses.comp (h : Encloses F) (inner : Embeds G) : Encloses fun c => F (G c) := by
  obtain ⟨before, depth, after, eq, goesOn⟩ := h
  obtain ⟨before', depth', after', eq', goesOn'⟩ := inner
  refine ⟨before ++ before'.deeper depth, depth + depth', after'.deeper depth ++ after, ?_, ?_⟩
  · intro c
    simp [eq, eq', Document.deeper_deeper]
  · rcases goesOn' with ⟨rfl, rfl⟩ | goesOn'
    · exact goesOn
    · exact (goesOn'.deeper depth).append _

section Parts

theorem Embeds.prepend (h : Embeds F) (a : Code) : Embeds fun c => a ++ F c :=
  h.between (fun c => by rw [Code.document_append, List.append_nil]) (.inl rfl)

theorem Encloses.prepend (h : Encloses F) (a : Code) : Encloses fun c => a ++ F c :=
  h.between fun c => by rw [Code.document_append, List.append_nil]

/-- Text that starts in the middle of a line closes a hole. -/
theorem Embeds.append (h : Embeds F) {t : Text} (inline : t.startsInline = true) : Encloses fun c => F c ++ .text t :=
  h.enclosed (fun c => by rw [Code.document_append, Code.document_text, List.nil_append])
    (Document.goesOn_ofText inline)

theorem Encloses.append (h : Encloses F) (b : Code) : Encloses fun c => F c ++ b :=
  h.between fun c => by rw [Code.document_append, List.nil_append]

/-- A hole between parts, followed by text that starts in the middle of a line. -/
theorem Encloses.concat {t : Text} (inline : t.startsInline = true) (front back : List Code) :
    Encloses fun c => .concat (front ++ c :: .text t :: back) :=
  Embeds.hole.enclosed (x := front.flatMap Code.document) (fun c => by simp)
    ((Document.goesOn_ofText inline).append (back.flatMap Code.document))

theorem Code.document_join_cons (separator : Text) (part : Code) {parts : List Code} (more : parts ≠ []) :
    (Code.join separator (part :: parts)).document =
      part.document ++ .ofText separator ++ (Code.join separator parts).document := by
  obtain ⟨next, rest, rfl⟩ := List.exists_cons_of_ne_nil more
  simp [Code.join]

/-- Joined parts, one of which has a hole. -/
theorem Embeds.join (h : Embeds F) {separator : Text} (inline : separator.startsInline = true)
    (front back : List Code) : Embeds fun c => Code.join separator (front ++ F c :: back) := by
  induction front with
  | nil =>
    cases back with
    | nil => exact h.between (x := []) (fun c => by simp [Code.join]) (.inl rfl)
    | cons next rest =>
      have goesOn := (Document.goesOn_ofText inline).append (Code.join separator (next :: rest)).document
      refine h.between (x := []) (fun c => ?_) (.inr goesOn)
      rw [List.nil_append, Code.document_join_cons _ _ (by simp), List.append_assoc, List.nil_append]
  | cons part rest ih =>
    refine ih.between (x := part.document ++ .ofText separator) (fun c => ?_) (.inl rfl)
    rw [List.cons_append, Code.document_join_cons _ _ (by simp), List.append_nil]

end Parts

/-! ## Functions of code to lines -/

section Lines

variable {H : Code → List Line}

theorem Encloses.line (h : Encloses F) : LinesEnclose fun c => [.line (F c)] := by
  obtain ⟨before, depth, after, eq, goesOn⟩ := h
  refine ⟨fun level => before.deeper level, depth, fun level => after.deeper level ++ [(level, newline)],
    fun level => ?_⟩
  exact ⟨fun c => by simp [Line.document, eq, Document.deeper_deeper], (goesOn.deeper level).append _⟩

theorem LinesEnclose.prepend (h : LinesEnclose H) (front : List Line) : LinesEnclose fun c => front ++ H c := by
  obtain ⟨before, depth, after, spec⟩ := h
  refine ⟨fun level => Line.documents level front ++ before level, depth, after,
    fun level => ⟨fun c => ?_, (spec level).2⟩⟩
  have eq := (spec level).1 c
  simp only [Line.documents_eq] at eq ⊢
  simp [eq]

theorem LinesEnclose.append (h : LinesEnclose H) (back : List Line) : LinesEnclose fun c => H c ++ back := by
  obtain ⟨before, depth, after, spec⟩ := h
  refine ⟨before, depth, fun level => after level ++ Line.documents level back, fun level => ⟨fun c => ?_, ?_⟩⟩
  · have eq := (spec level).1 c
    simp only [Line.documents_eq] at eq ⊢
    simp [eq]
  · exact (spec level).2.append _

theorem Encloses.opening (h : Encloses F) (body : List Line) (closing : Code) :
    LinesEnclose fun c => [.block (F c) body closing] := by
  obtain ⟨before, depth, after, eq, goesOn⟩ := h
  refine ⟨fun level => before.deeper level, depth, fun level => after.deeper level ++ ((level, newline) ::
    Line.documents (level + 1) body ++ closing.document.deeper level), fun level => ⟨fun c => ?_, ?_⟩⟩
  · simp [Line.document, eq, Document.deeper_deeper]
  · exact (goesOn.deeper level).append _

theorem LinesEnclose.body (h : LinesEnclose H) (opening closing : Code) :
    LinesEnclose fun c => [.block opening (H c) closing] := by
  obtain ⟨before, depth, after, spec⟩ := h
  refine ⟨fun level => opening.document.deeper level ++ (level, newline) :: before (level + 1), 1 + depth,
    fun level => after (level + 1) ++ closing.document.deeper level, fun level => ⟨fun c => ?_, ?_⟩⟩
  · have eq := (spec (level + 1)).1 c
    rw [Nat.add_assoc] at eq
    rw [Line.documents, Line.documents, Line.document, eq]
    simp
  · have goesOn := (spec (level + 1)).2
    rw [Nat.add_assoc] at goesOn
    exact goesOn.append _

theorem Encloses.closing (h : Encloses F) (opening : Code) (body : List Line) :
    LinesEnclose fun c => [.block opening body (F c)] := by
  obtain ⟨before, depth, after, eq, goesOn⟩ := h
  refine ⟨fun level => opening.document.deeper level ++ (level, newline) :: Line.documents (level + 1) body ++
    before.deeper level, depth, fun level => after.deeper level, fun level => ⟨fun c => ?_, goesOn.deeper level⟩⟩
  simp [Line.document, eq, Document.deeper_deeper]

/-- Lines that enclose code are a laid-out piece that does. -/
theorem LinesEnclose.layout (h : LinesEnclose H) : Encloses fun c => .layout (H c) := by
  obtain ⟨before, depth, after, spec⟩ := h
  refine ⟨before 0, depth, after 0, fun c => ?_, ?_⟩
  · rw [Code.document, (spec 0).1 c, Nat.zero_add]
  · have goesOn := (spec 0).2
    rwa [Nat.zero_add] at goesOn

end Lines

/-! ## Texts -/

/-- The document of code at a depth, as a text: the lines of the text of the code, indented again. -/
theorem Code.text_deeper {indentation : Text} (oneLine : newline ∉ indentation) (c : Code) (depth : Nat)
    (atStart : Bool) : (c.document.deeper depth).text indentation atStart =
      indented (pad indentation depth) atStart (c.toText indentation) := by
  rw [c.toText_eq_document oneLine, c.isFlush_document.text_eq true atStart, Document.indented_text oneLine]

/-- **Code in code, as texts.** The text of the code stands between two texts that do not depend on it, with more
indentation on its lines. -/
theorem Embeds.toText_eq (h : Embeds F) {indentation : Text} (oneLine : newline ∉ indentation) :
    ∃ (before after : Text) (depth : Nat) (atStart : Bool), ∀ c : Code, (F c).toText indentation =
      before ++ resumed (pad indentation depth) atStart (c.toText indentation) ++ after := by
  obtain ⟨before, depth, after, eq, next⟩ := h
  refine ⟨before.text indentation true, after.text indentation false, depth, startsLineAfter true before.units,
    fun c => ?_⟩
  have rest (atStart : Bool) : after.text indentation atStart =
      (if atStart then pad indentation depth else []) ++ after.text indentation false := by
    rcases next with ⟨rfl, rfl⟩ | goesOn
    · cases atStart <;> rfl
    · exact goesOn.text_eq atStart
  rw [Code.toText_eq_document oneLine, eq, Document.text_append, Document.text_append, Document.units_append,
    startsLineAfter_append, Document.units_deeper, rest, c.text_deeper oneLine, resumed,
    c.toText_eq_document oneLine,
    Document.startsLineAfter_text]
  simp only [List.append_assoc]

end ExprScript
