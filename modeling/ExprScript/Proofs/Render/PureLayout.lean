import ExprScript.Proofs.Layout.Builder
import ExprScript.Render.Module

/-!
# Indentation is pure layout

A rendering consists of lines, each with a depth and a content, and only the indentation before the contents depends on
the indentation that was asked for. `indentation_is_pure_layout` is the statement for expressions and modules.

- `Document.lines` are the lines of a document, and `Document.text_eq_join_lines` says that its text is made of them;
- nothing else depends on the indentation either: whether a condition reads `true` can be seen in its text for any
  indentation (`Code.readsTrue_iff`).
-/

namespace ExprScript

open Layout

/-- A line: how deep it is, and what stands on it. -/
structure IndentedLine where
  depth : Nat
  content : Text

/-- The text of a line. An empty line has no indentation. -/
def IndentedLine.text (indentation : Text) (l : IndentedLine) : Text :=
  if l.content = [] then [] else (List.replicate l.depth indentation).flatten ++ l.content

/-- The text of lines. -/
def IndentedLine.joined (indentation : Text) (lines : List IndentedLine) : Text :=
  Text.join [newline] (lines.map (IndentedLine.text indentation))

namespace Document

/-- The first line of a document, and the others; the first unit of a line says how deep it is. -/
def splitLines : Document → IndentedLine × List IndentedLine
  | [] => (⟨0, []⟩, [])
  | (depth, u) :: rest =>
    let (first, others) := splitLines rest
    if u = newline then (⟨0, []⟩, first :: others) else (⟨depth, u :: first.content⟩, others)

/-- The lines of a document. -/
def lines (d : Document) : List IndentedLine := d.splitLines.1 :: d.splitLines.2

theorem newline_notMem_content (d : Document) : ∀ l ∈ d.lines, newline ∉ l.content := by
  induction d with
  | nil => simp [lines, splitLines]
  | cons first rest ih =>
    obtain ⟨depth, u⟩ := first
    obtain ⟨front, others⟩ := List.forall_mem_cons.mp ih
    rw [lines, splitLines]
    by_cases hu : u = newline
    · simpa [hu] using ⟨front, others⟩
    · simpa [hu, Ne.symm hu] using ⟨front, others⟩

/-- The text of a document, line by line; inside a line the first one has no indentation. -/
theorem text_eq_join (indentation : Text) (atStart : Bool) (d : Document) : d.text indentation atStart =
    Text.join [newline] ((if atStart then d.splitLines.1.text indentation else d.splitLines.1.content) ::
      d.splitLines.2.map (IndentedLine.text indentation)) := by
  induction d generalizing atStart with
  | nil => cases atStart <;> rfl
  | cons first rest ih =>
    obtain ⟨depth, u⟩ := first
    rw [text, splitLines]
    by_cases hu : u = newline
    · have next := ih true
      rw [if_pos rfl] at next
      cases atStart <;> simp [hu, next, Text.join_cons, IndentedLine.text]
    · have next := ih false
      rw [if_neg Bool.false_ne_true] at next
      have line : u :: text indentation false rest = Text.join [newline] ((u :: (splitLines rest).1.content) ::
          (splitLines rest).2.map (IndentedLine.text indentation)) := by
        rw [next, ← List.singleton_append, ← Text.join_append_cons, List.singleton_append]
      cases atStart with
      | true => simp [hu, line, IndentedLine.text, Text.join_append_cons, pad]
      | false => simp [hu, line]

theorem text_eq_join_lines (indentation : Text) (d : Document) :
    d.text indentation true = IndentedLine.joined indentation d.lines :=
  d.text_eq_join indentation true

end Document

/-! ## Reading `true` -/

/-- Code that reads `true` has no line ends. -/
theorem Code.newline_notMem_of_true {indentation : Text} (h : newline ∉ indentation) {c : Code}
    (reads : c.toText indentation = "true") : newline ∉ c.document.units := by
  intro mem
  have inText : newline ∈ c.document.text indentation true := Document.mem_text_of_mem_units mem true
  rw [← c.toText_eq_document h, reads] at inText
  exact absurd inText (by decide)

/-- Whether code reads `true` can be seen in its text for any indentation. -/
theorem Code.readsTrue_iff {indentation : Text} (h : newline ∉ indentation) (c : Code) :
    c.readsTrue = true ↔ c.toText indentation = "true" := by
  have flush : newline ∉ ([] : Text) := List.not_mem_nil
  rw [Code.readsTrue, beq_iff_eq]
  constructor
  · intro reads
    have oneLine := c.newline_notMem_of_true flush reads
    rw [Code.toText_eq_units h oneLine, ← Code.toText_eq_units flush oneLine, reads]
  · intro reads
    have oneLine := c.newline_notMem_of_true h reads
    rw [Code.toText_eq_units flush oneLine, ← Code.toText_eq_units h oneLine, reads]

/-! ## Renderings -/

/-- A rendering, for every indentation: the lines do not depend on it, and neither does an error. -/
def IsPureLayout (render : Text → Rendered Text) : Prop :=
  (∃ lines : List IndentedLine, (∀ l ∈ lines, newline ∉ l.content) ∧
    ∀ indentation, newline ∉ indentation → render indentation = .ok (IndentedLine.joined indentation lines)) ∨
  ∃ error, ∀ indentation, render indentation = .error error

/-- A text at the outermost depth with code after it, for every indentation. -/
theorem isPureLayout_code (head : Text) (r : Rendered Code) :
    IsPureLayout fun indentation => r >>= fun c => .ok (head ++ c.toText indentation) := by
  cases r with
  | error e => exact .inr ⟨e, fun _ => rfl⟩
  | ok c =>
    let whole : Document := .ofText head ++ c.document
    refine .inl ⟨whole.lines, whole.newline_notMem_content, fun indentation h => ?_⟩
    have text : head ++ c.toText indentation = whole.text indentation true := by
      rw [Document.text_append, Document.text_ofText, c.toText_eq_document h, c.isFlush_document.text_eq true]
    show Except.ok (head ++ c.toText indentation) = _
    rw [text, Document.text_eq_join_lines]

/-- **Indentation is pure layout.** The rendering of an expression, or of a module with any header, consists of lines
that do not depend on the indentation, each indented as often as it is deep; and if it fails, then with the same error
for every indentation. Whether a condition reads `true`, which decides where a chain of arms ends, can be seen in the
text for any indentation. -/
theorem indentation_is_pure_layout (s : Style) :
    (∀ e : Expr, IsPureLayout fun indentation => e.render s indentation) ∧
    (∀ (m : Module) (header : Option Text),
      IsPureLayout fun indentation => m.render { toStyle := s, indentation := indentation, header := header }) ∧
    ∀ (c : Code) (indentation : Text), newline ∉ indentation →
      (c.readsTrue = true ↔ c.toText indentation = "true") := by
  refine ⟨fun e => ?_, fun m header => ?_, fun c indentation h => c.readsTrue_iff h⟩
  · exact isPureLayout_code [] (e.code s)
  · cases header with
    | none => exact isPureLayout_code [] (m.code s)
    | some header => exact isPureLayout_code (headerText header) (m.code s)

/-- A closure in a closure. -/
def nestedClosure : Expr := .lambda [⟨"x", none⟩] (.ifThenElse (.variable "x") (.bool true) (.bool false))

theorem indentation_is_pure_layout_nestedClosure : newline ∉ ("\t" : Text) ∧
    (IsPureLayout fun indentation => nestedClosure.render {} indentation) ∧
    (IsPureLayout fun indentation =>
      Module.render { indentation := indentation, header := some "a\n\nb" } ⟨[.const "f" none nestedClosure true]⟩) ∧
    ((Code.text "true").readsTrue = true ↔ (Code.text "true").toText "\t" = "true") ∧
    nestedClosure.render {} "\t" = .ok (IndentedLine.joined "\t" [⟨0, "((x) => \x7b"⟩, ⟨1, "return (() => \x7b"⟩,
      ⟨2, "if (x) \x7b"⟩, ⟨3, "return true;"⟩, ⟨2, "\x7d else \x7b"⟩, ⟨3, "return false;"⟩, ⟨2, "\x7d"⟩,
      ⟨1, "\x7d)();"⟩, ⟨0, "\x7d)"⟩]) := by
  have oneLine : newline ∉ ("\t" : Text) := by decide
  obtain ⟨expressions, modules, conditions⟩ := indentation_is_pure_layout {}
  exact ⟨oneLine, expressions nestedClosure, modules _ _, conditions _ _ oneLine, rfl⟩

end ExprScript
