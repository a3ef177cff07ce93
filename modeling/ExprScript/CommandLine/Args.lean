import ExprScript.Compile
import ExprScript.Number.Numeral

/-!
# Arguments of the command line

`Args.parse` reads the arguments from left to right. Options may stand in any order; a later one wins over an earlier
one of the same name, and the first argument that cannot be taken decides the outcome.
-/

namespace ExprScript

/-- What a command line asks for. -/
structure Invocation extends Settings where
  inputFile : Text := []
  outputFile : Option Text := none
  color : Bool := true
deriving DecidableEq

/-- Why a command line cannot be taken. -/
inductive ArgsError where
  | missingOutput
  | badIndent
  | unknownOption (arg : Text)
  | secondInput
  | noInput
deriving DecidableEq

/-- The wording of an error. -/
def ArgsError.message : ArgsError → Text
  | .missingOutput => "--output requires a file path"
  | .badIndent => "--indent requires a whole number"
  | .unknownOption arg => "Unknown option: " ++ arg
  | .secondInput => "Multiple input files not supported"
  | .noInput => "No input file specified"

/-- The outcome of reading a command line. -/
inductive ParsedArgs where
  | run (invocation : Invocation)
  | help
  | error (error : ArgsError)
deriving DecidableEq

namespace Args

/-- Reads the arguments after those that gave the invocation so far. -/
def parseFrom (o : Invocation) : List Text → ParsedArgs
  | [] => if o.inputFile.isEmpty then .error .noInput else .run o
  | arg :: rest =>
    if arg = "-h" || arg = "--help" then .help
    else if arg = "-o" || arg = "--output" then
      match rest with
      | [] => .error .missingOutput
      | file :: rest => parseFrom { o with outputFile := some file } rest
    else if arg = "--indent" then
      match rest with
      | [] => .error .badIndent
      | width :: rest =>
        match (Numeral.value width).toNat? with
        | some n => parseFrom { o with indent := n } rest
        | none => .error .badIndent
    else if arg = "--module" then parseFrom { o with module := true } rest
    else if arg = "--check" then parseFrom { o with check := true } rest
    else if arg = "--no-color" then parseFrom { o with color := false } rest
    else if arg.head? = some (unit '-') then .error (.unknownOption arg)
    else if o.inputFile.isEmpty then parseFrom { o with inputFile := arg } rest
    else .error .secondInput

/-- Reads the arguments of a command line. -/
def parse (args : List Text) : ParsedArgs := parseFrom {} args

end Args

end ExprScript
