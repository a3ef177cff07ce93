import ExprScript.Proofs.Layout.Builder
import ExprScript.Proofs.Lexical.Scanner
import Mathlib.Data.List.Basic

/-!
# Self-contained code

Code is self-contained if its text without indentation is. Indentation changes nothing, because lines end outside
literals (`Code.isSelfContained_toText`), so this is a fact about what the code is made of.

A template with holes in code, not in literals, can be scanned before the holes are filled (`Template.scan`). If it is
self-contained and the arguments are, then what it gives is (`Code.isSelfContained_of_template`); every way to put code
together is such a template.
-/

namespace ExprScript

open Layout Scanner

/-! ## Indentation -/

section Indentation

variable {indentation : Text}

theorem isSelfContained_pad (h : indentation.isSelfContained = true) (depth : Nat) :
    (pad indentation depth).isSelfContained = true := by
  induction depth with
  | zero => rfl
  | succ n ih =>
    rw [pad, List.replicate_succ, List.flatten_cons]
    exact Text.isSelfContained_append h ih

/-- After a line end a scanner is in code. -/
theorem Scanner.mode_of_step_newline {σ σ' : Scanner} (h : σ.step newline = some σ') : σ'.mode = .code := by
  obtain ⟨mode, opened⟩ := σ
  cases mode with
  | code =>
    obtain rfl := Option.some.inj h
    rfl
  | literal | escape => cases h

/-- A scanner takes no notice of the indentation of a document. -/
theorem Document.scan_text (h : indentation.isSelfContained = true) {atStart : Bool} {σ : Scanner}
    (inCode : atStart = true → σ.mode = .code) (d : Document) :
    σ.scan (d.text indentation atStart) = σ.scan d.units := by
  induction d generalizing atStart σ with
  | nil => rfl
  | cons first rest ih =>
    obtain ⟨depth, u⟩ := first
    rw [text, units_cons]
    by_cases hu : u = newline
    · rw [if_pos hu, hu, scan, scan]
      cases read : σ.step newline with
      | none => rfl
      | some σ' => exact ih fun _ => mode_of_step_newline read
    · have next : σ.scan (u :: text indentation false rest) = σ.scan (u :: units rest) := by
        rw [scan, scan]
        exact congrArg _ (funext fun σ' => ih (by simp))
      rw [if_neg hu]
      cases atStart with
      | false => exact next
      | true =>
        obtain ⟨mode, opened⟩ := σ
        obtain rfl : mode = .code := inCode rfl
        rw [if_pos rfl, scan_append, scan_of_isSelfContained (isSelfContained_pad h depth)]
        exact next

end Indentation

namespace Code

/-- Code of which the text is self-contained. -/
def IsSelfContained (c : Code) : Prop := (c.toText []).isSelfContained = true

/-- Indentation does not matter. -/
theorem isSelfContained_toText {indentation : Text} (oneLine : newline ∉ indentation)
    (h : indentation.isSelfContained = true) {c : Code} (hc : c.IsSelfContained) :
    (c.toText indentation).isSelfContained = true := by
  have same : start.scan (c.toText indentation) = start.scan (c.toText []) := by
    rw [c.toText_eq_document oneLine, c.toText_eq_document List.not_mem_nil, Document.scan_text h fun _ => rfl,
      Document.scan_text rfl fun _ => rfl]
  rw [Text.isSelfContained, same]
  exact hc

theorem IsSelfContained.text {t : Text} (h : t.isSelfContained = true) : (Code.text t).IsSelfContained := by
  rw [IsSelfContained, toText_text]
  exact h

theorem IsSelfContained.append {a b : Code} (ha : a.IsSelfContained) (hb : b.IsSelfContained) :
    (a ++ b).IsSelfContained := by
  rw [IsSelfContained, toText_append]
  exact Text.isSelfContained_append ha hb

theorem IsSelfContained.join {separator : Text} (between : separator.isSelfContained = true) {parts : List Code}
    (h : ∀ c ∈ parts, c.IsSelfContained) : (Code.join separator parts).IsSelfContained := by
  rw [IsSelfContained, toText_join]
  exact Text.isSelfContained_join between (List.forall_mem_map.mpr h)

end Code

/-! ## Templates -/

namespace Template

/-- Scans a template. The holes have to be in code. -/
def scan (σ : Scanner) : Template → Option Scanner
  | [] => some σ
  | .text t :: rest => (σ.scan t).bind fun σ' => scan σ' rest
  | .hole _ :: rest => if σ.mode = .code then scan σ rest else none

/-- Whether a template is self-contained, whatever self-contained code is in the holes. -/
def isSelfContained (t : Template) : Bool := t.scan .start == some .start

theorem scan_fill {args : List Code} (h : ∀ a ∈ args, a.IsSelfContained) {t : Template} {σ σ' : Scanner}
    (scanned : t.scan σ = some σ') : σ.scan ((t.fill args).toText []) = some σ' := by
  induction t generalizing σ with
  | nil => simpa [scan, Scanner.scan] using scanned
  | cons piece rest ih =>
    have split : (fill (piece :: rest) args).toText [] =
        (fillPiece args piece).toText [] ++ (fill rest args).toText [] := by simp
    rw [split, scan_append]
    cases piece with
    | text s =>
      obtain ⟨next, first, others⟩ := Option.bind_eq_some_iff.mp scanned
      rw [fillPiece, Code.toText_text, first]
      exact ih others
    | hole i =>
      rw [scan, Option.ite_none_right_eq_some] at scanned
      obtain ⟨mode, opened⟩ := σ
      obtain rfl : mode = .code := scanned.1
      have arg : (fillPiece args (.hole i)).IsSelfContained := by
        rw [fillPiece, List.getD_eq_getElem?_getD]
        cases found : args[i]? with
        | none => exact .text rfl
        | some a => exact h a (List.mem_of_getElem? found)
      rw [scan_of_isSelfContained arg]
      exact ih scanned.2

theorem isSelfContained_fill {t : Template} (balanced : t.isSelfContained = true) {args : List Code}
    (h : ∀ a ∈ args, a.IsSelfContained) : (t.fill args).IsSelfContained :=
  beq_iff_eq.mpr (scan_fill h (beq_iff_eq.mp balanced))

end Template

/-- Code that reads like a filled template. -/
theorem Code.isSelfContained_of_template {c : Code} (t : Template) (args : List Code)
    (eq : c.toText [] = (t.fill args).toText []) (balanced : t.isSelfContained = true)
    (h : ∀ a ∈ args, a.IsSelfContained) : c.IsSelfContained := by
  rw [Code.IsSelfContained, eq]
  exact Template.isSelfContained_fill balanced h

/-! ## Lines -/

section Lines

/-- What stands on the lines does not depend on their level. -/
theorem Line.units_document (level : Nat) (l : Line) : (l.document level).units = (l.document 0).units := by
  refine Code.induction_line (motive := fun _ => True)
    (L := fun l => ∀ level, (l.document level).units = (l.document 0).units)
    (fun _ => trivial) (fun _ _ => trivial) (fun _ _ => trivial) ?line ?lineEnd ?block l level
  case line =>
    intro content _ level
    rw [Line.document, Line.document, Document.units_append, Document.units_append, Document.units_deeper,
      Document.units_deeper]
    rfl
  case lineEnd => exact fun _ => rfl
  case block =>
    intro opening body closing _ ih _ level
    have inner (m : Nat) : (Line.documents m body).units = body.flatMap fun l => (l.document 0).units := by
      rw [Line.documents_eq, Document.units, List.map_flatMap]
      exact List.flatMap_congr fun l mem => ih l mem m
    simp only [Line.document, Document.units_append, Document.units_deeper, Document.units_cons, inner]

/-- The text of a line or block without indentation. -/
def Line.flat (l : Line) : Text := (l.document 0).units

theorem Code.toText_nil (c : Code) : c.toText [] = c.document.units := by
  rw [c.toText_eq_document List.not_mem_nil, Document.text_nil]

theorem Code.toText_layout (lines : List Line) : (Code.layout lines).toText [] = lines.flatMap Line.flat := by
  rw [Code.toText_nil, Code.document_layout, Document.units, List.map_flatMap]
  rfl

theorem Line.flat_line (content : Code) : (Line.line content).flat = content.toText [] ++ [newline] := by
  rw [Line.flat, Line.document, Document.units_append, Document.units_deeper, Code.toText_nil]
  rfl

theorem Line.flat_block (opening : Code) (body : List Line) (closing : Code) : (Line.block opening body closing).flat =
    opening.toText [] ++ newline :: (Code.layout body).toText [] ++ closing.toText [] := by
  have inner : (Line.documents 1 body).units = (Code.layout body).toText [] := by
    rw [Code.toText_layout, Line.documents_eq, Document.units, List.map_flatMap]
    exact List.flatMap_congr fun l _ => l.units_document 1
  simp only [Line.flat, Line.document, Document.units_append, Document.units_deeper, Document.units_cons, inner,
    Code.toText_nil opening, Code.toText_nil closing]

/-- A line or block of which the text is self-contained. -/
def Line.IsSelfContained (l : Line) : Prop := l.flat.isSelfContained = true

theorem Line.IsSelfContained.line {content : Code} (h : content.IsSelfContained) :
    (Line.line content).IsSelfContained := by
  rw [Line.IsSelfContained, Line.flat_line]
  exact Text.isSelfContained_append h rfl

theorem Line.IsSelfContained.lineEnd : Line.lineEnd.IsSelfContained := rfl

theorem Code.IsSelfContained.layout {lines : List Line} (h : ∀ l ∈ lines, l.IsSelfContained) :
    (Code.layout lines).IsSelfContained := by
  rw [Code.IsSelfContained, Code.toText_layout]
  exact Text.isSelfContained_flatMap h

/-- A block that reads like a filled template. -/
theorem Line.isSelfContained_of_template {opening : Code} {body : List Line} {closing : Code} (t : Template)
    (args : List Code)
    (eq : opening.toText [] ++ newline :: (Code.layout body).toText [] ++ closing.toText [] = (t.fill args).toText [])
    (balanced : t.isSelfContained = true) (h : ∀ a ∈ args, a.IsSelfContained) :
    (Line.block opening body closing).IsSelfContained := by
  rw [Line.IsSelfContained, Line.flat_block, eq]
  exact Template.isSelfContained_fill balanced h

end Lines

end ExprScript
