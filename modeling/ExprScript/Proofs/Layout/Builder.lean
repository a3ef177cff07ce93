import ExprScript.Proofs.Layout.Code
import ExprScript.Proofs.Layout.Document

/-!
# Code as a document

- `Code.document` is the document of a piece of code. It needs no builder: what stands in a block is one level deeper,
  and a laid-out piece that is written on a deeper line goes deeper as a whole;
- `Code.toText_eq_document`: the text of a piece of code is that of its document, whatever the indentation, as long as
  this has no line end in it. What builders do is to add documents (`Builder.add`).

`Code.inductionOn` is the induction on code, in which a list of parts comes with the hypothesis for every part in it.
-/

namespace ExprScript

open Layout

/-! ## Builders -/

namespace Builder

open Document

/-- Adds a document, whose depths count from the outermost level. -/
def add (d : Document) (b : Builder) : Builder :=
  { b with
    text := b.text ++ d.text b.indentation b.atLineStart
    atLineStart := startsLineAfter b.atLineStart d.units }

theorem add_nil (b : Builder) : b.add [] = b := by simp [add, Document.text, units, startsLineAfter]

theorem add_append (x y : Document) (b : Builder) : b.add (x ++ y) = (b.add x).add y := by
  simp [add, text_append, startsLineAfter_append]

/-- Writing the text of a document adds it at the level of the builder. -/
theorem write_text {b : Builder} (h : newline ∉ b.indentation) {d : Document} (flush : d.IsFlush) :
    b.write (d.text b.indentation true) = b.add (d.deeper b.level) := by
  have written : indented (pad b.indentation b.level) b.atLineStart (d.text b.indentation true) =
      (d.deeper b.level).text b.indentation b.atLineStart := by
    rw [flush.text_eq true b.atLineStart]
    exact indented_text h b.level b.atLineStart d
  rw [pad] at written
  simp [write, add, written, startsLineAfter_text]

theorem newLine_eq (depth : Nat) (b : Builder) : b.newLine = b.add [(depth, newline)] := by
  simp [newLine, add, Document.text, units, startsLineAfter]

theorem add_indent (d : Document) (b : Builder) : (b.add d).indent = b.indent.add d := rfl

theorem dedent_add_indent (d : Document) (b : Builder) : (b.indent.add d).dedent = b.add d := rfl

end Builder

/-! ## The document of code -/

mutual

/-- The document of a piece of code. -/
def Code.document : Code → Document
  | .text s => .ofText s
  | .concat parts => Code.partsDocument parts
  | .layout lines => Line.documents 0 lines

/-- The documents of the parts, one after the other. -/
def Code.partsDocument : List Code → Document
  | [] => []
  | part :: rest => part.document ++ Code.partsDocument rest

/-- The document of a line or block at a level. -/
def Line.document (level : Nat) : Line → Document
  | .line content => content.document.deeper level ++ [(level, newline)]
  | .lineEnd => [(level, newline)]
  | .block opening body closing =>
    opening.document.deeper level ++ (level, newline) :: Line.documents (level + 1) body ++
      closing.document.deeper level

/-- The documents of lines and blocks, one after the other. -/
def Line.documents (level : Nat) : List Line → Document
  | [] => []
  | line :: rest => line.document level ++ Line.documents level rest

end

namespace Code

section Induction

variable {motive : Code → Prop} {L : Line → Prop} (text : ∀ s, motive (.text s))
  (concat : ∀ parts, (∀ c ∈ parts, motive c) → motive (.concat parts))
  (layout : ∀ lines, (∀ l ∈ lines, L l) → motive (.layout lines))
  (line : ∀ content, motive content → L (.line content)) (lineEnd : L .lineEnd)
  (block : ∀ opening body closing, motive opening → (∀ l ∈ body, L l) → motive closing →
    L (.block opening body closing))

include text concat layout line lineEnd block

/-- Induction on code. -/
theorem inductionOn (c : Code) : motive c :=
  @Code.rec motive L (fun parts => ∀ c ∈ parts, motive c) (fun lines => ∀ l ∈ lines, L l) text concat layout
    line lineEnd block (List.forall_mem_nil _) (fun _ _ head tail => List.forall_mem_cons.mpr ⟨head, tail⟩)
    (List.forall_mem_nil _) (fun _ _ head tail => List.forall_mem_cons.mpr ⟨head, tail⟩) c

/-- The same induction, for what it says of lines and blocks. -/
theorem induction_line (l : Line) : L l :=
  @Line.rec motive L (fun parts => ∀ c ∈ parts, motive c) (fun lines => ∀ l ∈ lines, L l) text concat layout
    line lineEnd block (List.forall_mem_nil _) (fun _ _ head tail => List.forall_mem_cons.mpr ⟨head, tail⟩)
    (List.forall_mem_nil _) (fun _ _ head tail => List.forall_mem_cons.mpr ⟨head, tail⟩) l

end Induction

@[simp]
theorem document_text (s : Text) : (Code.text s).document = .ofText s := by
  rw [document]

@[simp]
theorem document_concat (parts : List Code) : (Code.concat parts).document = parts.flatMap document := by
  rw [document]
  induction parts with
  | nil => rw [partsDocument, List.flatMap_nil]
  | cons part rest ih => rw [partsDocument, ih, List.flatMap_cons]

@[simp]
theorem document_append (a b : Code) : (a ++ b).document = a.document ++ b.document := by
  show (Code.concat [a, b]).document = _
  simp

end Code

@[simp]
theorem Line.documents_eq (level : Nat) (lines : List Line) :
    Line.documents level lines = lines.flatMap (Line.document level) := by
  induction lines with
  | nil => rw [Line.documents, List.flatMap_nil]
  | cons line rest ih => rw [Line.documents, ih, List.flatMap_cons]

namespace Code

@[simp]
theorem document_layout (lines : List Line) : (Code.layout lines).document = lines.flatMap (Line.document 0) := by
  rw [document, Line.documents_eq]

/-! ## The text of code is that of its document -/

/-- Code starts at the outermost depth. -/
theorem isFlush_document (c : Code) : c.document.IsFlush := by
  refine inductionOn (motive := fun c => c.document.IsFlush) (L := fun l => (l.document 0).IsFlush) ?text ?concat
    ?layout ?line ?lineEnd ?block c
  case text =>
    intro s
    rw [document_text]
    exact .ofText s
  case concat =>
    intro parts ih
    rw [document_concat]
    exact .flatMap ih
  case layout =>
    intro lines ih
    rw [document_layout]
    exact .flatMap ih
  case line =>
    intro content ih
    rw [Line.document, Document.deeper_zero]
    exact ih.append (by simp [Document.IsFlush])
  case lineEnd => simp [Line.document, Document.IsFlush]
  case block =>
    intro opening body closing ih _ _
    rw [Line.document, Document.deeper_zero, List.append_assoc]
    exact ih.append (by simp [Document.IsFlush])

section Texts

variable {indentation : Text}

/-- Carrying out lines adds their documents, if carrying out each of them does. -/
theorem run_ops {lines : List Line}
    (h : ∀ l ∈ lines, ∀ b : Builder, b.indentation = indentation →
      b.step (op indentation l) = b.add (l.document b.level)) (b : Builder) (same : b.indentation = indentation) :
    b.run (ops indentation lines) = b.add (Line.documents b.level lines) := by
  induction lines generalizing b with
  | nil => rw [ops, Builder.run, Line.documents, Builder.add_nil]
  | cons l rest ih =>
    obtain ⟨first, others⟩ := List.forall_mem_cons.mp h
    rw [ops, Builder.run, first b same, ih others (b.add _) same, Line.documents, Builder.add_append]
    rfl

/-- **The text of code is that of its document.** -/
theorem toText_eq_document (h : newline ∉ indentation) (c : Code) :
    c.toText indentation = c.document.text indentation true := by
  refine inductionOn (motive := fun c => c.toText indentation = c.document.text indentation true)
    (L := fun l => ∀ b : Builder, b.indentation = indentation → b.step (op indentation l) = b.add (l.document b.level))
    ?text ?concat ?layout ?line ?lineEnd ?block c
  case text => simp
  case concat =>
    intro parts ih
    rw [toText_concat, document_concat]
    induction parts with
    | nil => rfl
    | cons part rest ihRest =>
      obtain ⟨first, others⟩ := List.forall_mem_cons.mp ih
      have flush : Document.IsFlush (rest.flatMap document) := .flatMap fun c _ => c.isFlush_document
      rw [List.flatMap_cons, List.flatMap_cons, Document.text_append, first, ihRest others, flush.text_eq true]
  case layout =>
    intro lines ih
    rw [toText, run_ops ih _ rfl, document]
    simp [Builder.add, Builder.empty]
  case line =>
    rintro content ih b rfl
    rw [op, Builder.step, Builder.writeLine, ih, Builder.write_text h content.isFlush_document, Line.document,
      Builder.add_append, ← Builder.newLine_eq]
  case lineEnd =>
    rintro b rfl
    rw [op, Builder.step, Line.document, ← Builder.newLine_eq]
  case block =>
    rintro opening body closing ihOpening ihBody ihClosing b rfl
    have opened : b.enter (opening.toText b.indentation) =
        b.indent.add (opening.document.deeper b.level ++ [(b.level, newline)]) := by
      rw [Builder.enter, Builder.writeLine, ihOpening, Builder.write_text h opening.isFlush_document,
        Builder.newLine_eq b.level, ← Builder.add_append, Builder.add_indent]
    have inside := run_ops ihBody (b.enter (opening.toText b.indentation)) rfl
    rw [op, Builder.step, inside, opened, ← Builder.add_append, Builder.leave, Builder.dedent_add_indent, ihClosing]
    have closed := Builder.write_text (b := b.add (opening.document.deeper b.level ++ [(b.level, newline)] ++
      Line.documents (b.level + 1) body)) h closing.isFlush_document
    refine closed.trans ?_
    rw [← Builder.add_append, Line.document]
    simp [Builder.add]

/-- A text without line ends is the same for every indentation. -/
theorem toText_eq_units (h : newline ∉ indentation) {c : Code} (oneLine : newline ∉ c.document.units) :
    c.toText indentation = c.document.units := by
  rw [toText_eq_document h, c.isFlush_document.text_eq true false, Document.text_of_no_newline oneLine]

end Texts

end Code

end ExprScript
