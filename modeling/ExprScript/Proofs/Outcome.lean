import Mathlib.Data.List.Forall2

/-!
# Outcomes

Computations that give a result or an error, taken apart: a sequence gives a result only if its parts do
(`Outcome.bind_eq_ok_iff`), and a computation for every element of a list gives the list of their results
(`Outcome.mapM_eq_ok_iff`) or the error of the first that fails (`Outcome.mapM_eq_error_iff`).
-/

namespace ExprScript.Outcome

variable {ε α β : Type}

@[simp]
theorem pure_eq_ok (a : α) : (pure a : Except ε α) = .ok a := rfl

@[simp]
theorem ok_bind (a : α) (f : α → Except ε β) : (Except.ok a >>= f) = f a := rfl

@[simp]
theorem error_bind (e : ε) (f : α → Except ε β) : (Except.error e >>= f) = .error e := rfl

@[simp]
theorem fmap_ok (f : α → β) (a : α) : (f <$> (Except.ok a : Except ε α)) = .ok (f a) := rfl

/-- A sequence gives a result exactly if both parts do. -/
theorem bind_eq_ok_iff {x : Except ε α} {f : α → Except ε β} {b : β} :
    (x >>= f) = .ok b ↔ ∃ a, x = .ok a ∧ f a = .ok b := by
  cases x with
  | error e => simp
  | ok a => simp

/-- A result is one of a mapped computation exactly if it comes from a result of the computation. -/
theorem fmap_eq_ok_iff {x : Except ε α} {f : α → β} {b : β} : (f <$> x) = .ok b ↔ ∃ a, x = .ok a ∧ f a = b := by
  cases x with
  | error e => simp [Functor.map, Except.map]
  | ok a => simp

/-- The computations for the elements of a list give a list of results exactly if each gives its result. -/
theorem mapM_eq_ok_iff {f : α → Except ε β} {xs : List α} {ys : List β} :
    xs.mapM f = .ok ys ↔ List.Forall₂ (fun x y => f x = .ok y) xs ys := by
  induction xs generalizing ys with
  | nil => simp [eq_comm]
  | cons x rest ih =>
    simp only [List.mapM_cons, bind_eq_ok_iff, pure_eq_ok, Except.ok.injEq, ih, List.forall₂_cons_left_iff]
    constructor
    · rintro ⟨y, hx, ys', hrest, rfl⟩
      exact ⟨y, ys', hx, hrest, rfl⟩
    · rintro ⟨y, ys', hx, hrest, rfl⟩
      exact ⟨y, hx, ys', hrest, rfl⟩

/-- If every computation gives a result, all of them do together. -/
theorem exists_mapM_eq_ok {f : α → Except ε β} {xs : List α} (h : ∀ x ∈ xs, ∃ y, f x = .ok y) :
    ∃ ys, xs.mapM f = .ok ys := by
  induction xs with
  | nil => exact ⟨[], rfl⟩
  | cons x rest ih =>
    obtain ⟨⟨y, first⟩, others⟩ := List.forall_mem_cons.mp h
    obtain ⟨ys, rest⟩ := ih others
    exact ⟨y :: ys, by simp [List.mapM_cons, first, rest]⟩

/-- The computations for the elements of a list fail exactly as the first one does that fails. -/
theorem mapM_eq_error_iff {f : α → Except ε β} {xs : List α} {e : ε} : xs.mapM f = .error e ↔
    ∃ front x back, xs = front ++ x :: back ∧ (∀ x' ∈ front, ∃ y, f x' = .ok y) ∧ f x = .error e := by
  constructor
  · intro failed
    induction xs with
    | nil => simp at failed
    | cons x rest ih =>
      rw [List.mapM_cons] at failed
      cases first : f x with
      | error e' =>
        obtain rfl : e' = e := by simpa [first] using failed
        exact ⟨[], x, rest, rfl, by simp, first⟩
      | ok y =>
        have others : rest.mapM f = .error e := by
          cases others : rest.mapM f with
          | error e' => simpa [first, others] using failed
          | ok ys => simp [first, others] at failed
        obtain ⟨front, x', back, rfl, fine, error⟩ := ih others
        exact ⟨x :: front, x', back, rfl, List.forall_mem_cons.mpr ⟨⟨y, first⟩, fine⟩, error⟩
  · rintro ⟨front, x, back, rfl, fine, error⟩
    obtain ⟨ys, before⟩ := exists_mapM_eq_ok fine
    rw [List.mapM_append, before, List.mapM_cons, error]
    simp

/-- What stands on the right of a correspondence of lists has a partner on the left. -/
theorem exists_of_forall₂ {R : α → β → Prop} {xs : List α} {ys : List β} (h : List.Forall₂ R xs ys) {y : β}
    (mem : y ∈ ys) : ∃ x ∈ xs, R x y := by
  induction h with
  | nil => simp at mem
  | cons hxy _ ih =>
    rcases List.mem_cons.mp mem with rfl | mem
    · exact ⟨_, List.mem_cons_self, hxy⟩
    · obtain ⟨x, hx, hxy⟩ := ih mem
      exact ⟨x, List.mem_cons_of_mem _ hx, hxy⟩

end ExprScript.Outcome
