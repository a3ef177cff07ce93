import ExprScript.Json.Reader
import ExprScript.Render.Unfinished
import ExprScript.Report.Format
import ExprScript.Tree.Decode

/-!
# Compilation

One input from its JSON text to its rendering: read, decode, render and, if asked for, check. A text that is made on
the way can have `maxTextLength` units, and a compilation that would need a longer one fails with `tooLong`.
-/

namespace ExprScript

/-- What to compile, and how. -/
structure Settings where
  /-- The input is a module and not a single expression. -/
  module : Bool := false
  /-- Spaces per level of indentation. -/
  indent : Nat := 2
  /-- The rendering has to be valid syntax. -/
  check : Bool := false
deriving DecidableEq

/-- The name of an input in paths. -/
def rootName : Text := "$"

/-- Reads a JSON text. -/
def readJson (source : Text) : Except CompileError Json :=
  match Json.parse? source with
  | some j => .ok j
  | none => .error .notJson

/-- What is wrong with an input that cannot be rendered. If one of the texts made before is already too long with
`width` spaces per level, that comes first. -/
def CompileError.ofRender (width : Nat) (unfinished : List Extent) (e : RenderError) : CompileError :=
  if unfinished.any (Extent.exceeds width) then .tooLong else .render e

/-- Fails unless a parser finds no error in a rendered text. -/
def assertValid (parser : SyntaxParser) (mode : CheckMode) (code : Text) : Except CompileError Unit :=
  match Check.issues parser mode code with
  | [] => .ok ()
  | issues => .error (.check mode issues)

/-- Decodes and renders a module. -/
def compileModule (width : Nat) (j : Json) : Except CompileError Code := do
  let m ← (Decode.module (.value j)).mapError .decode
  (m.code {}).mapError fun e => .ofRender width (m.unfinished {}) e

/-- Decodes and renders an expression. -/
def compileExpr (width : Nat) (j : Json) : Except CompileError Code := do
  let e ← (Decode.expr (.value j)).mapError .decode
  (e.code {}).mapError fun error => .ofRender width (e.unfinished {}) error

/-- What comes after the text of a module or expression: an expression gets a line end. -/
def ending : CheckMode → Text
  | .module => []
  | .expression => [newline]

/-- The text of code, checked if asked for. -/
def textOf (parser : SyntaxParser) (mode : CheckMode) (s : Settings) (code : Code) :
    Except CompileError (Thunk Text) := do
  let around := if s.check then Check.wrapped mode [] else ending mode
  match code.spaced? s.indent around.length with
  | none => throw .tooLong
  | some output =>
    if s.check then assertValid parser mode output.get
    return output.map (· ++ ending mode)

/-- The rendering of a JSON text, made when it is asked for. Whether there is one is known before. -/
def rendering (parser : SyntaxParser) (s : Settings) (source : Text) : Except CompileError (Thunk Text) := do
  let j ← readJson source
  if maxTextLength < s.indent then throw .tooLong
  let code ← if s.module then compileModule s.indent j else compileExpr s.indent j
  textOf parser (.ofModule s.module) s code

/-- Compiles a JSON text. -/
def compile (parser : SyntaxParser) (s : Settings) (source : Text) : Except CompileError Text :=
  (rendering parser s source).map Thunk.get

end ExprScript
