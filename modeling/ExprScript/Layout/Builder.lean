import ExprScript.Text.Basic

/-!
# Building indented text

A `Builder` holds the text built so far, the indentation of one level, the level, and whether the text is at the start
of a line. Indentation is put before the first unit of a line, so empty lines have none.

- `Layout.indented` is the text that one `write` adds;
- `Builder.run` carries out a sequence of `Op`s, in which blocks may nest.
-/

namespace ExprScript

namespace Layout

/-- A text with `pad` before the first unit of every line; `atStart` says whether the text starts a line. -/
def indented (pad : Text) : Bool → Text → Text
  | _, [] => []
  | atStart, c :: rest =>
    if c = newline then c :: indented pad true rest
    else if atStart then pad ++ c :: indented pad false rest
    else c :: indented pad false rest

/-- Whether a line starts after a text; `atStart` says whether one starts before it. -/
def startsLineAfter (atStart : Bool) : Text → Bool
  | [] => atStart
  | c :: rest => startsLineAfter (c == newline) rest

end Layout

/-- The state of building a text. -/
structure Builder where
  indentation : Text
  text : Text
  level : Nat
  atLineStart : Bool
deriving DecidableEq

namespace Builder

/-- The indentation of one level, where nothing else is asked for. -/
def twoSpaces : Text := "  "

/-- Nothing built yet. -/
def empty (indentation : Text) : Builder := ⟨indentation, [], 0, true⟩

/-- Adds a text, with indentation at the start of its non-empty lines. -/
def write (s : Text) (b : Builder) : Builder :=
  { b with
    text := b.text ++ Layout.indented (List.replicate b.level b.indentation).flatten b.atLineStart s
    atLineStart := Layout.startsLineAfter b.atLineStart s }

/-- Ends the line. -/
def newLine (b : Builder) : Builder := { b with text := b.text ++ [newline], atLineStart := true }

/-- Adds a text and ends the line. -/
def writeLine (s : Text) (b : Builder) : Builder := (b.write s).newLine

/-- Goes one level deeper. -/
def indent (b : Builder) : Builder := { b with level := b.level + 1 }

/-- Goes one level back, but not above the outermost one. -/
def dedent (b : Builder) : Builder := { b with level := b.level - 1 }

/-- Starts a block: its opening line, and a level deeper. -/
def enter (opening : Text) (b : Builder) : Builder := (b.writeLine opening).indent

/-- Ends a block: a level back, and its closing text, after which the line stays open. -/
def leave (closing : Text) (b : Builder) : Builder := b.dedent.write closing

/-- What a builder can be told to do. -/
inductive Op where
  | write (s : Text)
  | newline
  | writeLine (s : Text)
  | indent
  | dedent
  | block (opening : Text) (body : List Op) (closing : Text)

mutual

/-- Carries out one instruction. -/
def step : Op → Builder → Builder
  | .write s, b => b.write s
  | .newline, b => b.newLine
  | .writeLine s, b => b.writeLine s
  | .indent, b => b.indent
  | .dedent, b => b.dedent
  | .block opening body closing, b => (run body (b.enter opening)).leave closing

/-- Carries out instructions in order. -/
def run : List Op → Builder → Builder
  | [], b => b
  | op :: rest, b => run rest (step op b)

end

mutual

/-- The texts after every instruction that one instruction ends in, itself the last. -/
def stepTrace : Op → Builder → List Text
  | .block opening body closing, b =>
    runTrace body (b.enter opening) ++ [(step (.block opening body closing) b).text]
  | op, b => [(step op b).text]

/-- The texts after every instruction, in the order in which the instructions end. -/
def runTrace : List Op → Builder → List Text
  | [], _ => []
  | op :: rest, b => stepTrace op b ++ runTrace rest (step op b)

end

end Builder

end ExprScript
