import ExprScript.Text.Basic

/-!
# What a parser reports

A `Diagnostic` is what a parser of the target language says about a text: a message, which may have explanations below
it, a category, and where it is known the offset that the message is about.

The parser itself is a parameter. How a message is put together with its explanations is not: `MessageChain.text`
follows `flattenDiagnosticMessageText` of the parser's package, which is not part of the library.
-/

namespace ExprScript

/-- How serious a diagnostic is. -/
inductive Category where
  | warning | error | suggestion | message
deriving DecidableEq

/-- A message with explanations. -/
inductive MessageChain where
  | node (text : Text) (next : List MessageChain)

namespace MessageChain

mutual

/-- A message that stands `depth` levels below the top, with its explanations. -/
def textAt (depth : Nat) : MessageChain → Text
  | .node text next =>
    (if depth = 0 then [] else newline :: List.replicate (2 * depth) (unit ' ')) ++ text ++ textsAt (depth + 1) next

/-- Messages one after the other. -/
def textsAt (depth : Nat) : List MessageChain → Text
  | [] => []
  | chain :: rest => textAt depth chain ++ textsAt depth rest

end

/-- The whole message: every explanation on a line of its own, two spaces deeper than what it explains. -/
def text (chain : MessageChain) : Text := textAt 0 chain

end MessageChain

/-- One report of a parser. -/
structure Diagnostic where
  message : MessageChain
  category : Category
  /-- The offset in the parsed text, if the report is about a place in it. -/
  start : Option Nat

/-- A parser of the target language, as what it reports about a text. -/
abbrev SyntaxParser := Text → List Diagnostic

end ExprScript
