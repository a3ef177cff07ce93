import ExprScript.Layout.Builder

/-!
# Code, apart from its indentation

A `Code` is a text in which the pieces that span several lines are still structured: `Code.layout` lists the lines and
blocks of such a piece. Only `Code.text` knows the indentation: every laid-out piece is built by a builder of its own,
and its text is then a text like any other for what is around it.
-/

namespace ExprScript

mutual

/-- A piece of code. -/
inductive Code where
  | text (s : Text)
  | concat (parts : List Code)
  | layout (lines : List Line)

/-- A line of a laid-out piece, or a block of such lines, after which the line stays open. -/
inductive Line where
  | line (content : Code)
  | lineEnd
  | block (opening : Code) (body : List Line) (closing : Code)

end

namespace Code

instance : Coe Text Code := ⟨.text⟩

instance : Coe String Code := ⟨fun s => .text s⟩

instance : Append Code := ⟨fun a b => .concat [a, b]⟩

/-- The parts with a separator between neighbours. -/
def join (separator : Text) (parts : List Code) : Code := .concat (parts.intersperse (.text separator))

mutual

/-- The text of a piece of code, with the indentation of one level. -/
def toText (indentation : Text) : Code → Text
  | .text s => s
  | .concat parts => partsText indentation parts
  | .layout lines => (Builder.run (ops indentation lines) (Builder.empty indentation)).text

/-- The texts of the parts, one after the other. -/
def partsText (indentation : Text) : List Code → Text
  | [] => []
  | part :: rest => toText indentation part ++ partsText indentation rest

/-- What a builder has to do for a line or block. -/
def op (indentation : Text) : Line → Builder.Op
  | .line content => .writeLine (toText indentation content)
  | .lineEnd => .newline
  | .block opening body closing =>
    .block (toText indentation opening) (ops indentation body) (toText indentation closing)

/-- What a builder has to do for lines and blocks. -/
def ops (indentation : Text) : List Line → List Builder.Op
  | [] => []
  | line :: rest => op indentation line :: ops indentation rest

end

/-- Statements in a function without parameters that is called on the spot. -/
def closure (body : List Line) : Code := .layout [.block "(() => \x7b" body "\x7d)()"]

/-- The declaration of a constant. -/
def constant (name : Text) (value : Code) : Code := "const " ++ name ++ " = " ++ value ++ ";"

/-- The statement that returns a value. -/
def result (value : Code) : Code := "return " ++ value ++ ";"

/-- The line that declares a constant. -/
def constLine (name : Text) (value : Code) : Line := .line (constant name value)

/-- The line that returns a value. -/
def returnLine (value : Code) : Line := .line (result value)

end Code

end ExprScript
