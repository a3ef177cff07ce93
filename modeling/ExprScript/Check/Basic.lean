import ExprScript.Check.Diagnostic
import ExprScript.Check.Position

/-!
# Checking rendered text

Rendered text is given to a parser of the target language: a module as it is, an expression as the value of a
declaration. Every diagnostic of category error is an issue, with its position in the rendered text.
-/

namespace ExprScript

/-- What a rendered text is. -/
inductive CheckMode where
  | expression | module
deriving DecidableEq

/-- The name of a mode. -/
def CheckMode.name : CheckMode → Text
  | .expression => "expression"
  | .module => "module"

/-- What the text of an input is. -/
def CheckMode.ofModule (module : Bool) : CheckMode := if module then .module else .expression

/-- A syntax error, with line and column from one. -/
structure Issue where
  message : Text
  line : Nat
  column : Nat
deriving DecidableEq

namespace Check

/-- What stands before an expression in the text that is parsed. -/
def declaration : Text := "export const __checked = "

/-- The text that is parsed. -/
def wrapped (mode : CheckMode) (code : Text) : Text :=
  match mode with
  | .expression => declaration ++ code ++ ";\n"
  | .module => code ++ "\nexport \x7b\x7d;\n"

/-- The issue that a diagnostic of the parsed text is. On the first line of an expression the column counts from the
end of what stands before it. -/
def issue (mode : CheckMode) (parsed : Text) (d : Diagnostic) : Issue :=
  match d.start with
  | none => ⟨d.message.text, 1, 1⟩
  | some start =>
    let position := Position.ofOffset parsed start
    let column :=
      if mode = .expression && position.line = 0 then position.column - declaration.length else position.column
    ⟨d.message.text, position.line + 1, column + 1⟩

/-- The issues of a rendered text. -/
def issues (parser : SyntaxParser) (mode : CheckMode) (code : Text) : List Issue :=
  let parsed := wrapped mode code
  ((parser parsed).filter fun d => d.category = .error).map (issue mode parsed)

end Check

end ExprScript
