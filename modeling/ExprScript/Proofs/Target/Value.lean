import ExprScript.Json.Basic

/-!
# Values of the target language

The values that rendered code meets when it runs, as far as pattern matching looks at them.

- `Value` has the primitive values and the objects. Whatever else there is (functions, symbols) is an object here: it
  has members, and that is all a pattern can ask of it;
- `State` says what the variables hold, which objects are arrays and of what, of which constructors they are instances,
  and which members they have. Objects are known by name, so that they may hold each other in any way;
- reading a property, an element, the elements or a slice of a value is a `Reading`, which faults on `undefined` and
  `null`.
-/

namespace ExprScript.Target

/-- An object: one that is there already, or the one that slicing an array makes. -/
inductive Object where
  | allocated (name : Nat)
  | slice (of : Object) (start : Nat)

/-- A value. -/
inductive Value where
  | undefined
  | null
  | bool (b : Bool)
  | number (x : Number)
  | string (t : Text)
  | object (o : Object)

/-- Whether a value has no properties at all. -/
def Value.isNullish : Value → Bool
  | .undefined | .null => true
  | _ => false

/-- What a running program holds. -/
structure State where
  /-- The value of a variable. -/
  lookup : Text → Value
  /-- The elements of an object that is an array; one that is missing is `undefined`. -/
  elements : Nat → Option (List Value)
  /-- Whether an object is an instance of a constructor. -/
  isInstance : Object → Text → Bool
  /-- The member of a value with a name, be it inherited; `undefined` if there is none. -/
  member : Value → Text → Value

/-- Why code cannot go on. -/
inductive Fault where
  /-- Something is read of `undefined` or `null`. -/
  | ofNothing
  /-- The elements or a slice of what is no array are asked for, which is not followed here. -/
  | unfollowed
deriving DecidableEq

/-- The outcome of running code. -/
abbrev Reading := Except Fault

namespace State

/-- The elements of an array, be it a slice. -/
def elementsOf (s : State) : Object → Option (List Value)
  | .allocated name => s.elements name
  | .slice of start => (s.elementsOf of).map (List.drop start)

/-- The elements of a value that is an array. -/
def elements? (s : State) : Value → Option (List Value)
  | .object o => s.elementsOf o
  | _ => none

/-- Whether a value is an instance of a constructor; primitive values are of none. -/
def instanceOf (s : State) : Value → Text → Bool
  | .object o, constructor => s.isInstance o constructor
  | _, _ => false

/-- The property of a value with a name. Arrays and strings have a length and numbered properties of their own. -/
def property (s : State) (v : Value) (name : Text) : Value :=
  match v, s.elements? v with
  | .string t, _ => own (t.map fun u => .string [u])
  | _, some vs => own vs
  | _, none => s.member v name
where
  /-- The property of a value that is a sequence. -/
  own (vs : List Value) : Value :=
    if name = "length" then .number (.ofNat vs.length)
    else match Json.arrayIndex? name with
      | some i => vs.getD i .undefined
      | none => s.member v name

/-- Reads a property. -/
def readProperty (s : State) (v : Value) (name : Text) : Reading Value :=
  if v.isNullish then .error .ofNothing else .ok (s.property v name)

/-- Reads an element by its index. -/
def readElement (s : State) (v : Value) (i : Nat) : Reading Value :=
  match s.elements? v with
  | some vs => .ok (vs.getD i .undefined)
  | none => s.readProperty v (Text.ofNat i)

/-- Reads the elements of an array, as asking for its length does. -/
def readElements (s : State) (v : Value) : Reading (List Value) :=
  match s.elements? v with
  | some vs => .ok vs
  | none => .error (if v.isNullish then .ofNothing else .unfollowed)

/-- The slice of a value from an index on. -/
def slice : Value → Nat → Value
  | .object o, start => .object (.slice o start)
  | v, _ => v

/-- Reads a slice of an array. -/
def readSlice (s : State) (v : Value) (start : Nat) : Reading Value := do
  let _ ← s.readElements v
  return slice v start

end State

/-! ## Literals -/

/-- A literal of the target language. -/
inductive Literal where
  | number (x : Number)
  | string (t : Text)
  | bool (b : Bool)

/-- Whether two numbers are equal: a NaN equals nothing, and both zeros are equal. -/
def sameNumber (x y : Number) : Bool :=
  !x.isNaN && !y.isNaN && (x == y || (x.isFinite && y.isFinite && x.steps == 0 && y.steps == 0))

/-- Whether a value is strictly equal to a literal. -/
def Value.equals : Value → Literal → Bool
  | .number x, .number y => sameNumber x y
  | .string s, .string t => s == t
  | .bool a, .bool b => a == b
  | _, _ => false

/-! ## What tests promise -/

namespace State

variable {s : State} {v : Value}

/-- An instance of a constructor has properties. -/
theorem isNullish_of_instanceOf {constructor : Text} (h : s.instanceOf v constructor = true) :
    v.isNullish = false := by
  cases v <;> simp_all [instanceOf, Value.isNullish]

/-- A property can be read of all but `undefined` and `null`. -/
theorem readProperty_of_not_nullish (h : v.isNullish = false) (name : Text) :
    s.readProperty v name = .ok (s.property v name) := by
  simp [readProperty, h]

theorem readElement_of_array {vs : List Value} (h : s.elements? v = some vs) (i : Nat) :
    s.readElement v i = .ok (vs.getD i .undefined) := by
  simp only [readElement, h]

theorem readElements_of_array {vs : List Value} (h : s.elements? v = some vs) : s.readElements v = .ok vs := by
  simp only [readElements, h]

theorem readSlice_of_array {vs : List Value} (h : s.elements? v = some vs) (start : Nat) :
    s.readSlice v start = .ok (slice v start) := by
  rw [readSlice, readElements_of_array h]
  rfl

end State

end ExprScript.Target
