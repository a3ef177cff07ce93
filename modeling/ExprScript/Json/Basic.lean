import ExprScript.Number.Basic
import ExprScript.Text.Basic

/-!
# JSON values

- `Json` keeps the members of an object in order;
- `Json.ofMembers` builds an object from members as they are met: a repeated name keeps its first place and its last
  value, and names that are array indices come first, in ascending order;
- `Json.find` looks a member up. Every object answers to `constructor`, if not with a member of its own then with a
  function that it inherits, and `Found` tells the two apart;
- `Found.description` names what was found, as error messages do.
-/

namespace ExprScript

mutual

/-- A JSON value. -/
inductive Json where
  | null
  | bool (value : Bool)
  | number (value : Number)
  | string (value : Text)
  | array (elements : List Json)
  | object (members : List Member)

/-- A named value of an object. -/
structure Member where
  name : Text
  value : Json

end

namespace Json

/-! ## The order of members -/

/-- The index that a name denotes: a decimal without leading zeros below `2 ^ 32 - 1`. -/
def arrayIndex? (name : Text) : Option Nat :=
  if name.all CodeUnit.isDigit && (name.length == 1 || name.head? != some (unit '0')) && !name.isEmpty &&
      Text.digitsValue name < Nat.pow 2 32 - 1 then
    some (Text.digitsValue name)
  else none

/-- Sets a named thing: in its place if the name is there already, at the end otherwise. -/
def setNamed {α : Type} (name : α → Text) (x : α) : List α → List α
  | [] => [x]
  | y :: rest => if name y = name x then x :: rest else y :: setNamed name x rest

/-- Named things with array indices first, in ascending order. -/
def indicesFirst {α : Type} (name : α → Text) (xs : List α) : List α :=
  let indexed := xs.filter fun x => (arrayIndex? (name x)).isSome
  let named := xs.filter fun x => (arrayIndex? (name x)).isNone
  (indexed.mergeSort fun x y => (arrayIndex? (name x)).getD 0 ≤ (arrayIndex? (name y)).getD 0) ++ named

/-- Named things in the order of members, from the order in which they were met. -/
def memberOrder {α : Type} (name : α → Text) (xs : List α) : List α :=
  indicesFirst name (xs.foldl (fun seen x => setNamed name x seen) [])

/-- The object with these members, in the order in which they were met. -/
def ofMembers (members : List Member) : Json := .object (memberOrder Member.name members)

/-! ## Look-up -/

/-- The value of the member with a name. -/
def get? (name : Text) : List Member → Option Json
  | [] => none
  | m :: rest => if m.name = name then some m.value else get? name rest

end Json

/-- What a look-up finds. -/
inductive Found where
  /-- There is no such member. -/
  | nothing
  /-- There is no such member, but all objects answer to the name. -/
  | inherited
  | value (value : Json)

namespace Json

/-- Looks a member up. -/
def find (name : Text) (members : List Member) : Found :=
  match get? name members with
  | some j => .value j
  | none => if name = "constructor" then .inherited else .nothing

end Json

namespace Found

/-- A member that is missing or null counts as absent where it is optional. -/
def isAbsent : Found → Bool
  | .nothing => true
  | .value .null => true
  | _ => false

/-- What was found, in a word or two. -/
def description : Found → Text
  | .nothing => "nothing"
  | .inherited => "function"
  | .value .null => "null"
  | .value (.bool _) => "boolean"
  | .value (.number _) => "number"
  | .value (.string _) => "string"
  | .value (.array _) => "an array"
  | .value (.object _) => "object"

end Found

end ExprScript
