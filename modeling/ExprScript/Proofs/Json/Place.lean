import ExprScript.Json.Basic
import ExprScript.Tree.Path

/-!
# Places in a JSON value

- `Json.at?` follows a path, and gives the value that it leads to;
- `Json.HasPlace` says that a path leads to a place: every step enters what is there, and only the last one may name a
  member that is missing;
- `Json.descriptionAt` names what stands at a place, or its absence.

What is said of a part is said of the whole with one step more: `Json.at?_cons`, `Json.descriptionAt_cons`.
-/

namespace ExprScript

/-- A step into what is not there for it leads nowhere. -/
def Json.enter? : Step → Json → Option Json
  | .member name, .object ms => Json.get? name ms
  | .index i, .array items => items[i]?
  | _, _ => none

/-- The value that a path leads to. -/
def Json.at? : Path → Json → Option Json
  | [], j => some j
  | step :: rest, j => (j.enter? step).bind (Json.at? rest)

/-- A path leads to a place in a value: every step enters what is there, but the last one may name a member that the
object before it does not have. -/
inductive Json.HasPlace : Json → Path → Prop
  | here (j : Json) : HasPlace j []
  | member (ms : List Member) (name : Text) : HasPlace (.object ms) [.member name]
  | inside {j part : Json} {step : Step} {rest : Path} :
    j.enter? step = some part → HasPlace part rest → HasPlace j (step :: rest)

/-- What stands at a place, in a word or two. Where a member is missing that is nothing, except that every object
answers to `constructor` with a function. -/
def Json.descriptionAt (path : Path) (j : Json) : Text :=
  match j.at? path with
  | some value => (Found.value value).description
  | none => if path.getLast? = some (.member "constructor") then "function" else "nothing"

namespace Json

section Inside

variable {j part : Json} {step : Step}

theorem at?_cons (entered : j.enter? step = some part) (rest : Path) : j.at? (step :: rest) = part.at? rest := by
  rw [at?, entered, Option.bind_some]

theorem descriptionAt_cons (entered : j.enter? step = some part) (rest : Path) :
    j.descriptionAt (step :: rest) = part.descriptionAt rest := by
  unfold descriptionAt
  rw [at?_cons entered]
  cases rest with
  | nil => rfl
  | cons next rest => rw [List.getLast?_cons_cons]

end Inside

section Members

variable {name : Text} {ms : List Member}

/-- A member that is found is entered. -/
theorem enter?_of_find_eq_value {value : Json} (h : find name ms = .value value) :
    (Json.object ms).enter? (.member name) = some value := by
  unfold find at h
  split at h
  · rename_i v found
    rw [enter?, found, Found.value.inj h]
  · split at h <;> cases h

/-- A member that is not found is missing, and its description is what was found in its place. -/
theorem missing_of_find_ne_value (h : ∀ value, find name ms ≠ .value value) :
    (Json.object ms).at? [.member name] = none ∧
      (Json.object ms).descriptionAt [.member name] = (find name ms).description := by
  have missing : get? name ms = none := by
    cases found : get? name ms with
    | none => rfl
    | some value => exact absurd (by rw [find, found]) (h value)
  have nowhere : (Json.object ms).at? [.member name] = none := by rw [at?, enter?, missing, Option.bind_none]
  refine ⟨nowhere, ?_⟩
  rw [descriptionAt, nowhere, find, missing]
  simp only [List.getLast?_singleton, Option.some.injEq, Step.member.injEq]
  split <;> rfl

end Members

end Json

end ExprScript
