import ExprScript.Render.Expr

/-!
# Rendering declarations and modules

- `Decl.render` gives the text of a declaration, which ends in a line end;
- `Module.render` gives the text of a module: an optional header as comment lines with an empty line after them, and
  the declarations with an empty line between neighbours. `ModuleSource.render` does so for declarations alone, too.

As for expressions, texts have no bound here, and only compilation knows a longest one.
-/

namespace ExprScript

/-- How a module or expression is to be written. -/
structure Options extends Style where
  indentation : Text := Builder.twoSpaces
  /-- A comment above a module. -/
  header : Option Text := none

/-- The word before an exported declaration. -/
def exportText (exported : Bool) : Text := if exported then "export " else []

/-- A type after a colon; an empty type is left out like an absent one. -/
def typeText (type : Option Text) : Text :=
  match nonEmpty? type with
  | some type => ": " ++ type
  | none => []

/-- The first line of a function declaration. -/
def functionHead (name : Text) (params : List Param) (returnType : Option Text) (exported : Bool) : Text :=
  exportText exported ++ "function " ++ name ++ "(" ++ Param.list params ++ ")" ++ typeText returnType ++ " \x7b"

/-- Renders a declaration. -/
def Decl.code (s : Style) : Decl → Rendered Code
  | .const name type value exported => do
    let value ← value.code s
    return .layout [.line (exportText exported ++ "const " ++ name ++ typeText type ++ " = " ++ value ++ ";")]
  | .function name params returnType body exported => do
    let body ← body.code s
    return .layout [.block (functionHead name params returnType exported) [Code.returnLine body] "\x7d", .lineEnd]
  | .foreign node => .error (.unhandled .declaration node)

/-- The text of a declaration. -/
def Decl.render (s : Style) (indentation : Text) (d : Decl) : Rendered Text :=
  return (← d.code s).toText indentation

/-- A line of a header, as a comment. -/
def commentLine (line : Text) : Text := if line.isEmpty then "//\n" else "// " ++ line ++ "\n"

/-- A header as comment lines, with an empty line after them. -/
def headerText (header : Text) : Text := (Text.splitOn newline header).flatMap commentLine ++ [newline]

/-- Renders a module: its declarations, with an empty line between neighbours. -/
def Module.code (s : Style) (m : Module) : Rendered Code :=
  return Code.join [newline] (← m.decls.mapM (Decl.code s))

/-- The text of a module. -/
def Module.render (o : Options) (m : Module) : Rendered Text := do
  let header := match o.header with
    | some header => headerText header
    | none => []
  return header ++ (← m.code o.toStyle).toText o.indentation

/-- What can be rendered as a module: a module, or declarations alone. -/
inductive ModuleSource where
  | whole (m : Module)
  | bare (decls : List Decl)

namespace ModuleSource

/-- The module that is given, one way or the other. -/
def module : ModuleSource → Module
  | .whole m => m
  | .bare decls => ⟨decls⟩

/-- The text of what is rendered as a module. -/
def render (o : Options) (source : ModuleSource) : Rendered Text := source.module.render o

end ModuleSource

end ExprScript
