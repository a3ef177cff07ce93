import ExprScript.Report.Basic
import ExprScript.Report.Paint

/-!
# Formatting what went wrong

`Failure.format` is the text that is shown for a failure of a file, in colour or plain.
-/

namespace ExprScript

/-- The styles of the parts of a failure. -/
structure Palette where
  stage : List Paint
  path : List Paint
  note : List Paint
  file : List Paint

namespace Palette

/-- In colour. -/
def coloured : Palette := ⟨[.bold, .red], [.cyan], [.grey], [.bold]⟩

/-- Without styles. -/
def plain : Palette := ⟨[], [], [], []⟩

end Palette

namespace Failure

/-- The place of a report, unless its path is absent or empty. -/
def location (p : Palette) (path : Option Text) : Text :=
  match nonEmpty? path with
  | some path => " at " ++ Paint.apply p.path path
  | none => []

/-- The text that is shown for a failure. -/
def format (coloured : Bool) (file : Text) (failure : Failure) : Text :=
  let p := if coloured then Palette.coloured else Palette.plain
  let file := Paint.apply p.file file
  match failure with
  | .report r =>
    Text.join [newline]
      ((file ++ ": " ++ Paint.apply p.stage r.stage.label ++ location p r.path ++ ": " ++ r.message) ::
        r.notes.map fun note => Paint.apply p.note ("  note: " ++ note))
  | .message m => file ++ ": " ++ m
  | .value v => file ++ ": Unknown error: " ++ (v.map Json.plain).getD "undefined"

end Failure

end ExprScript
