import ExprScript.Check.Basic
import ExprScript.Render.Error
import ExprScript.Tree.DecodeError

/-!
# Reports

A `Report` is what a user is told about an input that could not be compiled: the stage that failed, a message, the path
of the offending part where it is known, and notes. A `Failure` is a report or anything else that can go wrong, and
`CompileError.failure` gives the failure of every way in which a compilation can fail.

What is reported of a text that is not JSON begins with `Invalid JSON: `. The rest is up to the JSON reader, whose
wording is not part of the library; one fixed text stands for it here.
-/

namespace ExprScript

/-- The stages of compilation. -/
inductive Stage where
  | decode | render | check
deriving DecidableEq

/-- The name of a stage. -/
def Stage.name : Stage → Text
  | .decode => "decode"
  | .render => "render"
  | .check => "check"

/-- The heading of a report. -/
def Stage.label : Stage → Text
  | .decode => "Decode error"
  | .render => "Render error"
  | .check => "Check error"

/-- What a user is told. -/
structure Report where
  message : Text
  stage : Stage := .render
  path : Option Text := none
  notes : List Text := []
deriving DecidableEq

/-- What went wrong: a reported error, an error that is only a message, or some value, which may be nothing. -/
inductive Failure where
  | report (report : Report)
  | message (text : Text)
  | value (value : Option Json)

/-- The ways in which a compilation can fail. -/
inductive CompileError where
  /-- A text would be longer than a text can be. -/
  | tooLong
  /-- The input is not JSON. -/
  | notJson
  | decode (error : DecodeError)
  | render (error : RenderError)
  | check (mode : CheckMode) (issues : List Issue)

/-- An issue in a line. -/
def Issue.note (i : Issue) : Text := Text.ofNat i.line ++ ":" ++ Text.ofNat i.column ++ " " ++ i.message

/-- The failure that an error is; `root` is the name of the decoded value in paths. -/
def CompileError.failure (root : Text) : CompileError → Failure
  | .tooLong => .message "Invalid string length"
  | .notJson => .report { message := "Invalid JSON: not a value of the format", stage := .decode, path := some root }
  | .decode e => .report { message := e.cause.message, stage := .decode, path := some (Path.text root e.path) }
  | .render e => .report { message := e.message, notes := e.notes }
  | .check mode issues =>
    .report
      { message := "Rendered " ++ mode.name ++ " is not valid syntax (" ++ Text.ofNat issues.length ++
          (if issues.length = 1 then " error)" else " errors)")
        stage := .check
        notes := issues.map Issue.note }

end ExprScript
