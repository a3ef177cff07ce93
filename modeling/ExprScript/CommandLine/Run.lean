import ExprScript.CommandLine.Args
import ExprScript.CommandLine.FileSystem
import ExprScript.Text.Utf8

/-!
# Running the command line

`CommandLine.run` is a whole run as a function: from the arguments, the files and a parser of the target language to
the exit code, what is printed, and the files afterwards.
-/

namespace ExprScript

/-- What a run leaves behind. -/
structure Outcome where
  exitCode : Nat
  stdout : Text
  stderr : Text
  files : FileSystem

namespace CommandLine

/-- How the command line is used. -/
def help : Text := "
matchcast - render expression trees to AssemblyScript

Usage:
  matchcast <input-file> [options]

Options:
  -o, --output <file>    Output file path (default: stdout)
  --module               Input is a module (\x7b \"decls\": [...] \x7d)
  --indent <n>           Spaces per indentation level (default: 2)
  --check                Fail unless the output parses
  --no-color             Plain error output
  -h, --help             Show this help

Examples:
  matchcast expr.json
  matchcast shapes.json --module -o shapes.ts
  matchcast expr.json --check --indent 4
"

/-- A text on lines of its own. -/
def printed (t : Text) : Text := t ++ [newline]

/-- A run that fails with a message and changes nothing. -/
def failed (fs : FileSystem) (stderr : Text) : Outcome := ⟨1, [], stderr, fs⟩

/-- Puts the output where it belongs. -/
def deliver (workingDirectory : Location) (o : Invocation) (fs : FileSystem) (output : Thunk Text) : Outcome :=
  match nonEmpty? o.outputFile with
  | none => ⟨0, output.get, [], fs⟩
  | some file =>
    let target := Location.resolve workingDirectory file
    match fs.write target (output.map Utf8.encode) with
    | .ok fs' => ⟨0, [], printed ("Rendered " ++ o.inputFile ++ " -> " ++ file), fs'⟩
    | .error e => failed fs (printed ("Error writing file: " ++ target.text) ++ printed e.message)

/-- Reads, compiles and delivers. -/
def render (parser : SyntaxParser) (workingDirectory : Location) (o : Invocation) (fs : FileSystem) : Outcome :=
  let source := Location.resolve workingDirectory o.inputFile
  match fs.read source with
  | .error e => failed fs (printed ("Error reading file: " ++ source.text) ++ printed e.message)
  | .ok content =>
    match rendering parser o.toSettings (Utf8.decode content) with
    | .error e => failed fs (printed ((e.failure rootName).format o.color o.inputFile))
    | .ok output => deliver workingDirectory o fs output

/-- A run of the command line. -/
def run (parser : SyntaxParser) (workingDirectory : Location) (args : List Text) (fs : FileSystem) : Outcome :=
  match Args.parse args with
  | .help => ⟨0, printed help, [], fs⟩
  | .error e => ⟨1, printed help, printed ("Error: " ++ e.message), fs⟩
  | .run o => render parser workingDirectory o fs

end CommandLine

end ExprScript
