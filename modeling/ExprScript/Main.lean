import ExprScript.CommandLine.Run

/-!
# The program

Takes a snapshot of the files that a run can touch, runs the command line on it, and carries out what the run left
behind. No parser of the target language comes with the program, so a check finds no errors here.
-/

namespace ExprScript.Program

/-- The string of a text. -/
def string (t : Text) : String := (String.fromUTF8? ⟨(Utf8.encode t).toArray⟩).getD ""

/-- What is at a location of the real file system. -/
def probe (l : Location) : IO (Option Entry) := do
  let path := (← IO.currentDir) / string l.text
  if ← path.isDir then return some .directory
  else if ← path.pathExists then return some (.file (← IO.FS.readBinFile path).toList)
  else return none

/-- The paths that a command line names. -/
def paths (args : List Text) : List Text :=
  match Args.parse args with
  | .run o => o.inputFile :: o.outputFile.toList
  | _ => []

/-- The part of the real file system that a command line can touch. What is there but does not let itself be read is a
file that is refused. -/
def snapshot (workingDirectory : Location) (args : List Text) : IO FileSystem := do
  let targets := (paths args).map (Location.resolve workingDirectory)
  let mut fs : FileSystem := { entries := [] }
  for l in targets.flatMap (fun t => t.above ++ [t]) do
    try
      if let some e ← probe l then fs := fs.set l e
    catch e =>
      let refusal := ((l, .reading), Text.ofString (toString e))
      fs := { fs.set l (.file []) with refusals := refusal :: fs.refusals }
  return fs

end ExprScript.Program

open ExprScript in
/-- The entry point. -/
def main (arguments : List String) : IO UInt32 := do
  let args := arguments.map Text.ofString
  let workingDirectory := Location.resolve [] (Text.ofString (← IO.currentDir).toString)
  let before ← Program.snapshot workingDirectory args
  let outcome := CommandLine.run (fun _ => []) workingDirectory args before
  for (l, e) in outcome.files.entries do
    if let .file content := e then
      if before.get? l ≠ some e then IO.FS.writeBinFile (Program.string l.text) ⟨content.toArray⟩
  (← IO.getStdout).putStr (Program.string outcome.stdout)
  (← IO.getStderr).putStr (Program.string outcome.stderr)
  return outcome.exitCode.toUInt32
