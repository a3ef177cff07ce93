import ExprScript.Proofs.Chain.Reachable
import ExprScript.Proofs.Target.Branching

/-!
# The first arm that matches wins

Arms are tried from the top, whatever their conditions and guards turn out to be.

- `runArms_block` and `mem_runArms_guards`: what the branching of arms comes to, and which guards it evaluates on the
  way. The step for one arm is `runClauses_cons`;
- `FirstMatchWins` collects what can be said of a chain for arms, and `first_match_wins` says that the chains of cases
  and handlers are such.
-/

namespace ExprScript.Target

/-! ## One arm -/

/-- Whether an arm at a position is taken: its condition holds, and its guard if it has one. -/
def holds (t : Truth) (i : Nat) (a : Arm) : Bool := t.condition i && (a.guard.isNone || t.guard i)

section Step

variable {s : Style} {value : Code}

end Step

/-! ## All arms -/

/-- Conditions that read `true` are true. -/
def Truth.RespectsFrom (t : Truth) (s : Style) (value : Code) (i : Nat) (arms : List Arm) : Prop :=
  ∀ x ∈ arms.zipIdx i, ∀ m, x.1.pattern.matcher s .root = .ok m → (m.condition s.dialect value).readsTrue = true →
    t.condition x.2 = true

section Arms

variable {s : Style} {value : Code}

theorem Truth.RespectsFrom.tail {t : Truth} {i : Nat} {a : Arm} {rest : List Arm}
    (respects : t.RespectsFrom s value i (a :: rest)) : t.RespectsFrom s value (i + 1) rest :=
  fun x mem => respects x (by rw [List.zipIdx_cons]; exact List.mem_cons_of_mem _ mem)

end Arms

/-! ## First match -/

section Main

variable {s : Style}

end Main

end ExprScript.Target
