import ExprScript.Proofs.Text.Basic
import ExprScript.Render.Template

/-!
# The text of code

The text of code that is put together is put together from the texts of its parts: `Code.toText_append`,
`Code.toText_join` and `Template.toText_fill`.
-/

namespace ExprScript

namespace Code

variable (indentation : Text)

@[simp]
theorem toText_text (s : Text) : (Code.text s).toText indentation = s := by
  rw [toText]

theorem partsText_eq (parts : List Code) : partsText indentation parts = parts.flatMap (toText indentation) := by
  induction parts with
  | nil => rw [partsText, List.flatMap_nil]
  | cons part rest ih => rw [partsText, ih, List.flatMap_cons]

@[simp]
theorem toText_concat (parts : List Code) :
    (Code.concat parts).toText indentation = parts.flatMap (toText indentation) := by
  rw [toText, partsText_eq]

@[simp]
theorem toText_append (a b : Code) : (a ++ b).toText indentation = a.toText indentation ++ b.toText indentation := by
  show (Code.concat [a, b]).toText indentation = _
  simp

/-- The text of joined code is the joined text of its parts. -/
@[simp]
theorem toText_join (separator : Text) : ∀ parts : List Code,
    (Code.join separator parts).toText indentation = Text.join separator (parts.map (toText indentation))
  | [] => by simp [Code.join]
  | [part] => by simp [Code.join]
  | part :: part' :: rest => by
    have ih := toText_join separator (part' :: rest)
    rw [Code.join, toText_concat] at ih
    rw [Code.join, toText_concat, List.map_cons, Text.join_cons (by simp), ← ih]
    simp

end Code

/-- The text of a filled template is put together from the texts of its pieces. -/
@[simp]
theorem Template.toText_fill (indentation : Text) (t : Template) (args : List Code) :
    (t.fill args).toText indentation = t.flatMap fun piece => (Template.fillPiece args piece).toText indentation := by
  rw [Template.fill, Code.toText_concat, List.flatMap_map]

end ExprScript
