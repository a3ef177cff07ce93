import ExprScript.Layout.Extent
import ExprScript.Proofs.Layout.Builder

/-!
# Extents are lengths

`Code.extent` is computed from two texts, one without indentation and one with a single space per level. It gives the
length for every width (`Code.length_toText`), since a document gets longer by the depth of each indented line with
every space (`Document.length_text`).

So `Code.spaced?` is what it is meant to be: the text, unless it is too long (`Code.get_spaced?`).
-/

namespace ExprScript

open Layout

/-- The indentation of so many spaces per level. -/
def spaces (width : Nat) : Text := List.replicate width (unit ' ')

theorem newline_notMem_spaces (width : Nat) : newline ∉ spaces width := by
  intro mem
  exact absurd (List.eq_of_mem_replicate mem) (by decide)

namespace Document

/-- How many levels of indentation there are in the text of a document. -/
def levels : Bool → Document → Nat
  | _, [] => 0
  | atStart, (depth, u) :: rest =>
    if u = newline then levels true rest else (if atStart then depth else 0) + levels false rest

theorem length_pad (indentation : Text) (depth : Nat) :
    (pad indentation depth).length = indentation.length * depth := by
  rw [pad, List.length_flatten, List.map_replicate, List.sum_replicate_nat, Nat.mul_comm]

/-- The length of a document's text: its units, and the indentation of every level. -/
theorem length_text (indentation : Text) (atStart : Bool) (d : Document) :
    (d.text indentation atStart).length = d.units.length + indentation.length * d.levels atStart := by
  induction d generalizing atStart with
  | nil => simp [text, units, levels]
  | cons first rest ih =>
    obtain ⟨depth, u⟩ := first
    rw [text, levels, units_cons, List.length_cons]
    by_cases hu : u = newline
    · rw [if_pos hu, if_pos hu, List.length_cons, ih]
      omega
    · rw [if_neg hu, if_neg hu]
      cases atStart with
      | false => simp [ih]; omega
      | true => simp [ih, length_pad, Nat.mul_add]; omega

/-- A text without any level of indentation does not depend on the indentation. -/
theorem text_of_levels_eq_zero {indentation : Text} {atStart : Bool} {d : Document} (h : d.levels atStart = 0) :
    d.text indentation atStart = d.units := by
  induction d generalizing atStart with
  | nil => rfl
  | cons first rest ih =>
    obtain ⟨depth, u⟩ := first
    rw [levels] at h
    rw [text, units_cons]
    by_cases hu : u = newline
    · rw [if_pos hu] at h ⊢
      rw [ih h, hu]
    · rw [if_neg hu] at h ⊢
      obtain ⟨here, others⟩ := Nat.add_eq_zero_iff.mp h
      rw [ih others]
      cases atStart with
      | false => rfl
      | true =>
        obtain rfl : depth = 0 := here
        rfl

end Document

namespace Extent

theorem length_plus (width units : Nat) (x : Extent) : (x.plus units).length width = x.length width + units := by
  simp only [length, plus]
  omega

/-- A text that is too long for a width is too long for every greater one. -/
theorem exceeds_mono {x : Extent} {width width' : Nat} (le : width ≤ width') (h : x.exceeds width = true) :
    x.exceeds width' = true := by
  have more : width * x.levels ≤ width' * x.levels := Nat.mul_le_mul_right _ le
  rw [exceeds, decide_eq_true_iff, length] at h ⊢
  omega

end Extent

namespace Code

theorem extent_eq (c : Code) : c.extent = ⟨c.document.units.length, c.document.levels true⟩ := by
  have flush : (c.toText []).length = c.document.units.length := by
    rw [toText_eq_document (by simp), Document.text_nil]
  have spaced : (c.toText (spaces 1)).length = c.document.units.length + c.document.levels true := by
    rw [toText_eq_document (newline_notMem_spaces 1), Document.length_text, spaces, List.length_replicate, Nat.one_mul]
  show Extent.mk (c.toText []).length ((c.toText (spaces 1)).length - (c.toText []).length) = _
  rw [flush, spaced, Nat.add_sub_cancel_left]

/-- **The extent of code is its length**, for every width. -/
theorem length_toText (width : Nat) (c : Code) : (c.toText (spaces width)).length = c.extent.length width := by
  rw [toText_eq_document (newline_notMem_spaces width), Document.length_text, extent_eq, Extent.length, spaces,
    List.length_replicate]

/-- The text of code for a width, unless it is too long for a text with `around` units more. -/
theorem get_spaced? (width around : Nat) (c : Code) : (c.spaced? width around).map Thunk.get =
    if maxTextLength < (c.toText (spaces width)).length + around then none else some (c.toText (spaces width)) := by
  have exceeds : (c.extent.plus around).exceeds width = true ↔
      maxTextLength < (c.toText (spaces width)).length + around := by
    rw [Extent.exceeds, decide_eq_true_iff, Extent.length_plus, length_toText]
  rw [spaced?]
  by_cases long : maxTextLength < (c.toText (spaces width)).length + around
  · rw [if_pos long, if_pos (exceeds.mpr long), Option.map_none]
  · rw [if_neg long, if_neg (mt exceeds.mp long)]
    by_cases flat : c.extent.levels = 0
    · -- without an indented line, the text is made without spaces
      rw [if_pos flat, Option.map_some]
      rw [extent_eq] at flat
      rw [toText_eq_document (newline_notMem_spaces width), Document.text_of_levels_eq_zero flat]
      show some (c.toText []) = _
      rw [toText_eq_document (by simp), Document.text_nil]
    · rw [if_neg flat, Option.map_some]
      rfl

end Code

end ExprScript
