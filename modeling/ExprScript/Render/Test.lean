import ExprScript.Render.Dialect
import ExprScript.Text.Quoted
import ExprScript.Tree.Basic

/-!
# Tests on a value

A pattern is compiled to a `Test` on a value and the places in it that its variables name.

- `Ref` is a place in the value: the value itself, or a part of a place;
- `Test` is a boolean combination of elementary tests on places;
- `Ref.code` and `Test.code` write them in a dialect, with the code of the value itself given.
-/

namespace ExprScript

/-- A property access, by name if the name is an identifier. -/
def propertyCode (target : Code) (name : Text) : Code :=
  if name.isIdentifier then target ++ "." ++ name else target ++ "[" ++ Quoted.encode name ++ "]"

/-- A place in a value. -/
inductive Ref where
  /-- The value itself. -/
  | root
  /-- An argument of a constructor with `arity` arguments. -/
  | argument (of : Ref) (i arity : Nat)
  | property (of : Ref) (name : Text)
  | element (of : Ref) (i : Nat)
  /-- The rest of a list from an index on. -/
  | slice (of : Ref) (start : Nat)

/-- The code of a place. -/
def Ref.code (d : Dialect) (value : Code) : Ref → Code
  | .root => value
  | .argument of i arity =>
    (if arity = 1 then d.onlyArgument else d.argument).fill
      [of.code d value, .text (Text.ofNat i), .text (Text.ofNat arity)]
  | .property of name => propertyCode (of.code d value) name
  | .element of i => of.code d value ++ "[" ++ Text.ofNat i ++ "]"
  | .slice of start => d.slice.fill [of.code d value, .text (Text.ofNat start)]

/-- A test on a value. -/
inductive Test where
  | always
  | never
  /-- A place holds a literal, of which the code is given too. -/
  | equals (place : Ref) (literal : Expr) (code : Code)
  | instanceOf (place : Ref) (constructor : Text)
  | isArray (place : Ref)
  | notNull (place : Ref)
  /-- A list has exactly so many elements. -/
  | lengthIs (place : Ref) (count : Nat)
  /-- A list has at least so many elements. -/
  | lengthAtLeast (place : Ref) (count : Nat)
  /-- All tests hold, tried in order. -/
  | all (tests : List Test)
  /-- One of the tests holds, tried in order. -/
  | any (tests : List Test)

mutual

/-- The code of a test. Alternatives are grouped each and as a whole, so that a conjunction can take them as they
are. -/
def Test.code (d : Dialect) (value : Code) : Test → Code
  | .always => "true"
  | .never => "false"
  | .equals place _ code => d.equals.fill [place.code d value, code]
  | .instanceOf place constructor => d.instanceOf.fill [place.code d value, .text constructor]
  | .isArray place => d.isArray.fill [place.code d value]
  | .notNull place => d.notNull.fill [place.code d value]
  | .lengthIs place count => d.length.fill [place.code d value] ++ " === " ++ Text.ofNat count
  | .lengthAtLeast place count => d.length.fill [place.code d value] ++ " >= " ++ Text.ofNat count
  | .all tests => Code.join " && " (Test.codes d value tests)
  | .any tests =>
    match Test.codes d value tests with
    | [alternative] => "(" ++ alternative ++ ")"
    | alternatives => "(" ++ Code.join " || " (alternatives.map fun c => "(" ++ c ++ ")") ++ ")"

/-- The codes of tests. -/
def Test.codes (d : Dialect) (value : Code) : List Test → List Code
  | [] => []
  | test :: rest => test.code d value :: Test.codes d value rest

end

/-- A compiled pattern: when it matches, and which places its variables name. -/
structure Matcher where
  test : Test
  bindings : List (Text × Ref)

namespace Matcher

/-- The code of the test. -/
def condition (m : Matcher) (d : Dialect) (value : Code) : Code := m.test.code d value

/-- The bindings with the code of their places. -/
def bindingCodes (m : Matcher) (d : Dialect) (value : Code) : List (Text × Code) :=
  m.bindings.map fun (name, place) => (name, place.code d value)

/-- All of several matchers after a first test. -/
def conjunction (first : Test) (parts : List Matcher) : Matcher :=
  ⟨.all (first :: parts.map Matcher.test), parts.flatMap Matcher.bindings⟩

end Matcher

end ExprScript
