import ExprScript.Layout.Code

/-!
# Chains of branches

The arms of a case become a `Chain`: branches tried from the top, each with a condition and perhaps a guard, and an
end, which is either a branch that needs no test or a statement for a value that no branch takes. `Chain.lines` writes
a chain as `if`, `else if` and `else`.
-/

namespace ExprScript

/-- What a branch does: it declares constants and returns a value. -/
structure Branch where
  bindings : List (Text × Code)
  body : Code

/-- The lines of a branch. -/
def Branch.lines (b : Branch) : List Line :=
  b.bindings.map (fun (name, value) => Code.constLine name value) ++ [Code.returnLine b.body]

/-- Branches and what ends them. -/
inductive Chain where
  /-- No branch takes the value. -/
  | fallback (statement : Code)
  /-- A branch that takes every value. -/
  | otherwise (branch : Branch)
  | test (condition : Code) (guard : Option Code) (branch : Branch) (rest : Chain)

namespace Chain

/-- The code of a guard. It may use the constants of its branch, so if there are any it is a closure that declares
them; standing after the condition, it runs only if that holds. -/
def guardCode (bindings : List (Text × Code)) (guard : Code) : Code :=
  if bindings.isEmpty then "(" ++ guard ++ ")" else Code.closure (Branch.lines ⟨bindings, guard⟩)

/-- What stands before a guard. -/
def guardHead (condition : Code) : Code := condition ++ " && "

/-- The code of a condition with its guard. -/
def testCode (condition : Code) (guard : Option Code) (bindings : List (Text × Code)) : Code :=
  match guard with
  | none => condition
  | some g => guardHead condition ++ guardCode bindings g

/-- The opening of a branch with a test; `opened` says whether branches stand before it. -/
def openingCode (opened : Bool) (test : Code) : Code :=
  (if opened then " else if (" else "if (" : Text) ++ test ++ ") \x7b"

/-- The lines of a chain; `opened` says whether branches stand before it. -/
def lines : Bool → Chain → List Line
  | false, .fallback statement => [.line statement]
  | true, .fallback statement => [.block " else \x7b" [.line statement] "\x7d", .lineEnd]
  | false, .otherwise branch => branch.lines
  | true, .otherwise branch => [.block " else \x7b" branch.lines "\x7d", .lineEnd]
  | opened, .test condition guard branch rest =>
    .block (openingCode opened (testCode condition guard branch.bindings)) branch.lines "\x7d" :: lines true rest

end Chain

end ExprScript
