import ExprScript.Proofs.Tree.Blame
import ExprScript.Proofs.Tree.Format
import ExprScript.Proofs.Tree.RoundTrip

/-!
# Decoding sees only the members that are read

`decoding_ignores_unread`: values that differ only in the order of members, in members that no node reads, and in
whether optional members are left out or `null`, are decoded to the same tree, or fail with the same message at the
same path.

- `Decoded.Same` relates outcomes that are told apart neither by the tree nor by the report, and passes through
  sequences of readings (`Decoded.Same.bind`);
- `Role.Agrees r j j'` is the invariant: two values look the same from outside and are read alike in the role `r`. An
  object is read alike if what it is read for is (`Role.agrees_object`), with one short case for each kind of node;
- a change that should make no difference makes none (`Edit.agrees`), by induction on how deep it lies.
-/

namespace ExprScript

/-! ## Outcomes that are not told apart -/

namespace Decoded

variable {α β : Type}

/-- The same result, or errors with the same path and the same message. -/
inductive Same : Decoded α → Decoded α → Prop
  | ok (a : α) : Same (.ok a) (.ok a)
  | error {e e' : DecodeError} : e.path = e'.path → e.cause.message = e'.cause.message → Same (.error e) (.error e')

namespace Same

theorem refl : ∀ r : Decoded α, Same r r
  | .ok a => .ok a
  | .error _ => .error rfl rfl

theorem bind {x x' : Decoded α} {f f' : α → Decoded β} (first : Same x x')
    (rest : ∀ a, x = .ok a → Same (f a) (f' a)) : Same (x >>= f) (x' >>= f') := by
  cases first with
  | ok a => exact rest a rfl
  | error path message => exact .error path message

theorem map {x x' : Decoded α} (h : Same x x') (f : α → β) :
    Same (x >>= fun a => .ok (f a)) (x' >>= fun a => .ok (f a)) :=
  h.bind fun a _ => .ok (f a)

theorem within {x x' : Decoded α} (h : Same x x') (step : Step) :
    Same (Decoded.within step x) (Decoded.within step x') := by
  cases h with
  | ok a => exact .ok a
  | error path message => exact .error (congrArg (step :: ·) path) message

theorem rooted_eq {x x' : Decoded α} (h : Same x x') (root : Text) : x.rooted root = x'.rooted root := by
  cases h with
  | ok a => rfl
  | @error e e' path message =>
    show Except.error (Failure.report _) = Except.error (Failure.report _)
    rw [path, message]

end Same

end Decoded

/-! ## Values that look the same -/

/-- Two values are told apart at most by what is in them, if they are arrays or objects. -/
def Json.LooksLike : Json → Json → Prop
  | .array _, .array _ | .object _, .object _ => True
  | j, j' => j = j'

namespace Json.LooksLike

theorem refl (j : Json) : j.LooksLike j := by
  cases j <;> simp [LooksLike]

/-- Two values that look the same are both arrays, both objects, or equal. -/
theorem cases {j j' : Json} (h : j.LooksLike j') :
    (∃ xs ys, j = .array xs ∧ j' = .array ys) ∨ (∃ ms ms', j = .object ms ∧ j' = .object ms') ∨ j = j' := by
  unfold LooksLike at h
  split at h
  · exact .inl ⟨_, _, rfl, rfl⟩
  · exact .inr (.inl ⟨_, _, rfl, rfl⟩)
  · exact .inr (.inr h)

theorem description_eq {j j' : Json} (h : j.LooksLike j') :
    (Found.value j).description = (Found.value j').description := by
  obtain ⟨xs, ys, rfl, rfl⟩ | ⟨ms, ms', rfl, rfl⟩ | rfl := h.cases <;> rfl

theorem isAbsent_eq {j j' : Json} (h : j.LooksLike j') : (Found.value j).isAbsent = (Found.value j').isAbsent := by
  obtain ⟨xs, ys, rfl, rfl⟩ | ⟨ms, ms', rfl, rfl⟩ | rfl := h.cases <;> rfl

/-- Values of the wrong shape that look the same are refused in the same words. -/
theorem same_expected {α : Type} {j j' : Json} (h : j.LooksLike j') (shape : Shape) :
    Decoded.Same (α := α) (Decoded.fail (.expected shape (.value j))) (Decoded.fail (.expected shape (.value j'))) := by
  refine .error rfl ?_
  rw [DecodeCause.message, DecodeCause.message, h.description_eq]

end Json.LooksLike

/-! ## Values that are read alike -/

open Decoded

/-- Two values are read alike in a role. -/
def Role.ReadsAlike : Role → Json → Json → Prop
  | .expr, j, j' => Same (Decode.expr (.value j)) (Decode.expr (.value j'))
  | .namedExpr, j, j' => Same (Decode.namedExpr (.value j)) (Decode.namedExpr (.value j'))
  | .arm, j, j' => Same (Decode.arm (.value j)) (Decode.arm (.value j'))
  | .param, j, j' => Same (Decode.param (.value j)) (Decode.param (.value j'))
  | .statement, j, j' => Same (Decode.statement (.value j)) (Decode.statement (.value j'))
  | .pattern, j, j' => Same (Decode.pattern (.value j)) (Decode.pattern (.value j'))
  | .namedPattern, j, j' => Same (Decode.namedPattern (.value j)) (Decode.namedPattern (.value j'))
  | .decl, j, j' => Same (Decode.decl (.value j)) (Decode.decl (.value j'))
  | .module, j, j' => Same (Decode.module (.value j)) (Decode.module (.value j'))
  | .listOf r, j, j' => ∀ xs ys, j = .array xs → j' = .array ys →
      List.Forall₂ (fun x y => x.LooksLike y ∧ r.ReadsAlike x y) xs ys
  | .plain, _, _ => True

/-- Two values look the same and are read alike. -/
structure Role.Agrees (r : Role) (j j' : Json) : Prop where
  looks : j.LooksLike j'
  reads : r.ReadsAlike j j'

theorem Role.readsAlike_refl (r : Role) (j : Json) : r.ReadsAlike j j := by
  induction r generalizing j with
  | listOf r ih =>
    rintro xs ys rfl eq
    obtain rfl := Json.array.inj eq
    exact List.forall₂_same.mpr fun x _ => ⟨.refl x, ih x⟩
  | plain => trivial
  | _ => exact .refl _

theorem Role.Agrees.refl (r : Role) (j : Json) : r.Agrees j j := ⟨.refl j, r.readsAlike_refl j⟩

/-- What was found for a member in one object and in another: the same, nothing that counts, or values that agree. -/
inductive Slot.Agrees (slot : Slot) : Found → Found → Prop
  | same (found : Found) : Agrees slot found found
  | absent {found found' : Found} : slot.optional = true → found.isAbsent = true → found'.isAbsent = true →
      Agrees slot found found'
  | value {j j' : Json} : slot.role.Agrees j j' → Agrees slot (.value j) (.value j')

namespace Slot.Agrees

variable {slot : Slot} {found found' : Found}

theorem isAbsent_eq (h : slot.Agrees found found') : found.isAbsent = found'.isAbsent := by
  cases h with
  | same => rfl
  | absent _ absent absent' => rw [absent, absent']
  | value agree => exact agree.looks.isAbsent_eq

/-- A member that is optional and there might as well have to be there. -/
theorem required {name : Text} {role : Role} (h : (Slot.orNull name role).Agrees found found')
    (present : ¬ found.isAbsent = true) : (Slot.required name role).Agrees found found' := by
  cases h with
  | same => exact .same found
  | absent _ absent => exact absurd absent present
  | value agree => exact .value agree

/-- What was found for a member that has to be there is read alike if values that agree are. -/
theorem same_of_required {α : Type} {read : Found → Decoded α} (h : slot.Agrees found found')
    (required : slot.optional = false)
    (values : ∀ j j', slot.role.Agrees j j' → Same (read (.value j)) (read (.value j'))) :
    Same (read found) (read found') := by
  cases h with
  | same => exact .refl _
  | absent optional => exact absurd (optional.symm.trans required) (by decide)
  | value agree => exact values _ _ agree

end Slot.Agrees

/-- Two objects agree on a member. -/
def Slot.AgreesIn (slot : Slot) (ms ms' : List Member) : Prop :=
  slot.Agrees (Json.find slot.name ms) (Json.find slot.name ms')

/-- Two objects agree on the members of a table. -/
def AgreeOn (ms ms' : List Member) : List Slot → Prop
  | [] => True
  | slot :: rest => slot.AgreesIn ms ms' ∧ AgreeOn ms ms' rest

theorem agreeOn_of_forall {ms ms' : List Member} {slots : List Slot} (h : ∀ slot ∈ slots, slot.AgreesIn ms ms') :
    AgreeOn ms ms' slots := by
  induction slots with
  | nil => trivial
  | cons slot rest ih =>
    obtain ⟨first, others⟩ := List.forall_mem_cons.mp h
    exact ⟨first, ih others⟩

namespace Decode

/-! ## Reading members -/

section Values

variable {j j' : Json}

/-- Values that look the same are read alike by whatever refuses arrays and objects. -/
theorem same_scalar {α : Type} {read : Found → Decoded α} (shape : Shape)
    (array : ∀ xs, read (.value (.array xs)) = fail (.expected shape (.value (.array xs))))
    (object : ∀ ms, read (.value (.object ms)) = fail (.expected shape (.value (.object ms)))) (h : j.LooksLike j') :
    Same (read (.value j)) (read (.value j')) := by
  obtain ⟨xs, ys, rfl, rfl⟩ | ⟨ms, ms', rfl, rfl⟩ | rfl := h.cases
  · rw [array, array]
    exact h.same_expected shape
  · rw [object, object]
    exact h.same_expected shape
  · exact .refl _

theorem same_text (h : j.LooksLike j') : Same (text (.value j)) (text (.value j')) :=
  same_scalar .string (fun _ => rfl) (fun _ => rfl) h

theorem same_bool (h : j.LooksLike j') : Same (bool (.value j)) (bool (.value j')) :=
  same_scalar .boolean (fun _ => rfl) (fun _ => rfl) h

theorem same_integer (h : j.LooksLike j') : Same (integer (.value j)) (integer (.value j')) :=
  same_scalar .number (fun _ => rfl) (fun _ => rfl) h

theorem same_itemsWith {α : Type} {read : Found → Decoded α} {xs ys : List Json}
    (h : List.Forall₂ (fun x y => Same (read (.value x)) (read (.value y))) xs ys) (i : Nat) :
    Same (itemsWith read i xs) (itemsWith read i ys) := by
  induction h generalizing i with
  | nil => exact .refl _
  | cons first _ ih =>
    rw [itemsWith, itemsWith]
    exact (first.within _).bind fun _ _ => (ih (i + 1)).map _

/-- Arrays are read alike if their elements are. -/
theorem same_arrayWith {α : Type} {r : Role} {read : Found → Decoded α} (h : (Role.listOf r).Agrees j j')
    (elements : ∀ x y, r.ReadsAlike x y → Same (read (.value x)) (read (.value y))) :
    Same (arrayWith read (.value j)) (arrayWith read (.value j')) := by
  obtain ⟨xs, ys, rfl, rfl⟩ | ⟨ms, ms', rfl, rfl⟩ | rfl := h.looks.cases
  · exact same_itemsWith ((h.reads xs ys rfl rfl).imp fun x y agree => elements x y agree.2) 0
  · exact h.looks.same_expected .array
  · exact .refl _

/-- Arms are read alike if each of them is: there are as many, so both arrays are empty or none is. -/
theorem same_arms (h : (Role.listOf .arm).Agrees j j') : Same (arms (.value j)) (arms (.value j')) := by
  have each : Same (arrayWith arm (.value j)) (arrayWith arm (.value j')) := same_arrayWith h fun _ _ read => read
  rw [arms_eq, arms_eq]
  obtain ⟨xs, ys, rfl, rfl⟩ | ⟨ms, ms', rfl, rfl⟩ | rfl := h.looks.cases
  · cases h.reads xs ys rfl rfl with
    | nil => exact .refl _
    | cons => exact each
  · exact each
  · exact .refl _

end Values

section Members

variable {α : Type} {ms ms' : List Member} {name : Text} {role : Role}

/-- A member that has to be there is read alike if values that agree are. -/
theorem same_member {read : Found → Decoded α} (h : (Slot.required name role).AgreesIn ms ms')
    (values : ∀ j j', role.Agrees j j' → Same (read (.value j)) (read (.value j'))) :
    Same (within (.member name) (read (Json.find name ms))) (within (.member name) (read (Json.find name ms'))) :=
  (h.same_of_required rfl values).within _

/-- An optional member counts as absent in both objects, or it has to be there in both. -/
theorem same_optional {x y y' : Decoded α} (h : (Slot.orNull name role).AgreesIn ms ms')
    (there : (Slot.required name role).AgreesIn ms ms' → Same y y') :
    Same (if (Json.find name ms).isAbsent then x else y) (if (Json.find name ms').isAbsent then x else y') := by
  have absent : (Json.find name ms).isAbsent = (Json.find name ms').isAbsent := h.isAbsent_eq
  rw [← absent]
  split
  · exact .refl x
  · rename_i present
    exact there (h.required present)

end Members

end Decode

namespace Slot.AgreesIn

open Decode

variable {ms ms' : List Member} {name : Text}

/-! Members, by what they are read as -/

theorem textAt (h : (required name .plain).AgreesIn ms ms') : Same (Decode.textAt name ms) (Decode.textAt name ms') :=
  same_member h fun _ _ agree => same_text agree.looks

theorem boolAt (h : (required name .plain).AgreesIn ms ms') : Same (Decode.boolAt name ms) (Decode.boolAt name ms') :=
  same_member h fun _ _ agree => same_bool agree.looks

theorem integerAt (h : (required name .plain).AgreesIn ms ms') :
    Same (Decode.integerAt name ms) (Decode.integerAt name ms') :=
  same_member h fun _ _ agree => same_integer agree.looks

theorem optionalTextAt (h : (orNull name .plain).AgreesIn ms ms') :
    Same (Decode.optionalTextAt name ms) (Decode.optionalTextAt name ms') :=
  same_optional h fun there => there.textAt.map some

theorem optionalBoolAt (h : (orNull name .plain).AgreesIn ms ms') :
    Same (Decode.optionalBoolAt name ms) (Decode.optionalBoolAt name ms') :=
  same_optional h fun there => there.boolAt.map some

theorem binaryOp (h : (required name .plain).AgreesIn ms ms') :
    Same (within (.member name) (Decode.binaryOp (Json.find name ms)))
      (within (.member name) (Decode.binaryOp (Json.find name ms'))) :=
  same_member h fun _ _ agree => (same_text agree.looks).bind fun _ _ => .refl _

theorem unaryOp (h : (required name .plain).AgreesIn ms ms') :
    Same (within (.member name) (Decode.unaryOp (Json.find name ms)))
      (within (.member name) (Decode.unaryOp (Json.find name ms'))) :=
  same_member h fun _ _ agree => (same_text agree.looks).bind fun _ _ => .refl _

theorem exprAt (h : (required name .expr).AgreesIn ms ms') : Same (Decode.exprAt name ms) (Decode.exprAt name ms') := by
  rw [Decode.exprAt, Decode.exprAt]
  exact same_member h fun _ _ agree => agree.reads

theorem literalAt (h : (required name .expr).AgreesIn ms ms') :
    Same (Decode.literalAt name ms) (Decode.literalAt name ms') := by
  rw [Decode.literalAt, Decode.literalAt]
  have values (j j' : Json) (agree : Role.expr.Agrees j j') :
      Same (Decode.expr (.value j) >>= literal) (Decode.expr (.value j') >>= literal) :=
    Same.bind agree.reads fun _ _ => .refl _
  exact @same_member _ _ _ _ _ (fun found => Decode.expr found >>= literal) h values

theorem patternAt (h : (required name .pattern).AgreesIn ms ms') :
    Same (Decode.patternAt name ms) (Decode.patternAt name ms') := by
  rw [Decode.patternAt, Decode.patternAt]
  exact same_member h fun _ _ agree => agree.reads

theorem exprsAt (h : (required name (.listOf .expr)).AgreesIn ms ms') :
    Same (Decode.exprsAt name ms) (Decode.exprsAt name ms') := by
  rw [Decode.exprsAt, Decode.exprsAt, exprs_eq, exprs_eq]
  exact same_member h fun _ _ agree => same_arrayWith agree fun _ _ read => read

theorem namedExprsAt (h : (required name (.listOf .namedExpr)).AgreesIn ms ms') :
    Same (Decode.namedExprsAt name ms) (Decode.namedExprsAt name ms') := by
  rw [Decode.namedExprsAt, Decode.namedExprsAt, namedExprs_eq, namedExprs_eq]
  exact same_member h fun _ _ agree => same_arrayWith agree fun _ _ read => read

theorem armsAt (h : (required name (.listOf .arm)).AgreesIn ms ms') :
    Same (Decode.armsAt name ms) (Decode.armsAt name ms') := by
  rw [Decode.armsAt, Decode.armsAt]
  exact same_member h fun _ _ => same_arms

theorem paramsAt (h : (required name (.listOf .param)).AgreesIn ms ms') :
    Same (Decode.paramsAt name ms) (Decode.paramsAt name ms') := by
  rw [Decode.paramsAt, Decode.paramsAt, params_eq, params_eq]
  exact same_member h fun _ _ agree => same_arrayWith agree fun _ _ read => read

theorem statementsAt (h : (required name (.listOf .statement)).AgreesIn ms ms') :
    Same (Decode.statementsAt name ms) (Decode.statementsAt name ms') := by
  rw [Decode.statementsAt, Decode.statementsAt, statements_eq, statements_eq]
  exact same_member h fun _ _ agree => same_arrayWith agree fun _ _ read => read

theorem patternsAt (h : (required name (.listOf .pattern)).AgreesIn ms ms') :
    Same (Decode.patternsAt name ms) (Decode.patternsAt name ms') := by
  rw [Decode.patternsAt, Decode.patternsAt, patterns_eq, patterns_eq]
  exact same_member h fun _ _ agree => same_arrayWith agree fun _ _ read => read

theorem namedPatternsAt (h : (required name (.listOf .namedPattern)).AgreesIn ms ms') :
    Same (Decode.namedPatternsAt name ms) (Decode.namedPatternsAt name ms') := by
  rw [Decode.namedPatternsAt, Decode.namedPatternsAt, namedPatterns_eq, namedPatterns_eq]
  exact same_member h fun _ _ agree => same_arrayWith agree fun _ _ read => read

theorem declsAt (h : (required name (.listOf .decl)).AgreesIn ms ms') :
    Same (within (.member name) (decls (Json.find name ms))) (within (.member name) (decls (Json.find name ms'))) := by
  rw [decls_eq, decls_eq]
  exact same_member h fun _ _ agree => same_arrayWith agree fun _ _ read => read

end Slot.AgreesIn

namespace Decode

/-! ## Reading objects -/

section Objects

variable {ms ms' : List Member}

/-- The kind that is read is the one that the object names. -/
theorem kindName?_of_textAt {kind : Text} (h : textAt "kind" ms = .ok kind) : kindName? ms = some kind := by
  rw [kindName?, eq_string_of_text (within_eq_ok_iff.mp h)]

theorem same_expr (h : AgreeOn ms ms' (Role.slots .expr ms)) :
    Same (expr (.value (.object ms))) (expr (.value (.object ms'))) := by
  rw [expr, expr]
  obtain ⟨kind, members⟩ := h
  refine kind.textAt.bind fun name read => ?_
  rw [kindName?_of_textAt read, Option.bind_some] at members
  cases known : ExprKind.ofName? name with
  | none => exact .refl _
  | some k =>
    rw [known, Option.elim_some] at members
    cases k with
    | int => exact members.1.integerAt.map _
    | string | «variable» => exact members.1.textAt.map _
    | bool => exact members.1.boolAt.map _
    | list => exact members.1.exprsAt.map _
    | record => exact members.1.namedExprsAt.map _
    | qualified =>
      obtain ⟨space, name, -⟩ := members
      exact space.optionalTextAt.bind fun _ _ => name.textAt.map _
    | binary =>
      obtain ⟨op, left, right, -⟩ := members
      exact op.binaryOp.bind fun _ _ => left.exprAt.bind fun _ _ => right.exprAt.map _
    | unary =>
      obtain ⟨op, operand, -⟩ := members
      exact op.unaryOp.bind fun _ _ => operand.exprAt.map _
    | call =>
      obtain ⟨fn, args, -⟩ := members
      exact fn.exprAt.bind fun _ _ => args.exprsAt.map _
    | construct =>
      obtain ⟨constructor, args, -⟩ := members
      exact constructor.textAt.bind fun _ _ => args.exprsAt.map _
    | recordCreate =>
      obtain ⟨recordType, fields, -⟩ := members
      exact recordType.textAt.bind fun _ _ => fields.namedExprsAt.map _
    | recordUpdate =>
      obtain ⟨target, updates, -⟩ := members
      exact target.exprAt.bind fun _ _ => updates.namedExprsAt.map _
    | field =>
      obtain ⟨target, name, -⟩ := members
      exact target.exprAt.bind fun _ _ => name.textAt.map _
    | index =>
      obtain ⟨target, index, -⟩ := members
      exact target.exprAt.bind fun _ _ => index.exprAt.map _
    | ifThenElse =>
      obtain ⟨condition, yes, no, -⟩ := members
      exact condition.exprAt.bind fun _ _ => yes.exprAt.bind fun _ _ => no.exprAt.map _
    | letIn =>
      obtain ⟨bindings, body, -⟩ := members
      exact bindings.namedExprsAt.bind fun _ _ => body.exprAt.map _
    | caseOf | tryCatch =>
      obtain ⟨value, arms, -⟩ := members
      exact value.exprAt.bind fun _ _ => arms.armsAt.map _
    | lambda =>
      obtain ⟨params, body, -⟩ := members
      exact params.paramsAt.bind fun _ _ => body.exprAt.map _
    | doBlock =>
      obtain ⟨statements, result, -⟩ := members
      exact statements.statementsAt.bind fun _ _ => result.exprAt.map _
    | map | filter =>
      obtain ⟨collection, iterator, body, -⟩ := members
      exact collection.exprAt.bind fun _ _ => iterator.textAt.bind fun _ _ => body.exprAt.map _
    | fold =>
      obtain ⟨collection, initial, accumulator, iterator, transform, -⟩ := members
      exact collection.exprAt.bind fun _ _ => initial.exprAt.bind fun _ _ => accumulator.textAt.bind fun _ _ =>
        iterator.textAt.bind fun _ _ => transform.exprAt.map _
    | annotate =>
      obtain ⟨expr, annotation, -⟩ := members
      exact expr.exprAt.bind fun _ _ => annotation.textAt.map _

theorem same_pattern (h : AgreeOn ms ms' (Role.slots .pattern ms)) :
    Same (pattern (.value (.object ms))) (pattern (.value (.object ms'))) := by
  rw [pattern, pattern]
  obtain ⟨kind, members⟩ := h
  refine kind.textAt.bind fun name read => ?_
  rw [kindName?_of_textAt read, Option.bind_some] at members
  cases known : PatternKind.ofName? name with
  | none => exact .refl _
  | some k =>
    rw [known, Option.elim_some] at members
    cases k with
    | wildcard => exact .refl _
    | «variable» => exact members.1.textAt.map _
    | literal => exact members.1.literalAt.map _
    | constructor =>
      obtain ⟨constructor, args, -⟩ := members
      exact constructor.textAt.bind fun _ _ => args.patternsAt.map _
    | record => exact members.1.namedPatternsAt.map _
    | list =>
      obtain ⟨elements, tail, -⟩ := members
      exact elements.patternsAt.bind fun _ _ => same_optional tail fun there => there.patternAt.map _
    | «alias» =>
      obtain ⟨name, inner, -⟩ := members
      exact name.textAt.bind fun _ _ => inner.patternAt.map _
    | or => exact members.1.patternsAt.bind fun _ _ => .refl _

theorem same_statement (h : AgreeOn ms ms' (Role.slots .statement ms)) :
    Same (statement (.value (.object ms))) (statement (.value (.object ms'))) := by
  rw [statement, statement]
  obtain ⟨kind, members⟩ := h
  refine kind.textAt.bind fun name read => ?_
  rw [kindName?_of_textAt read, Option.bind_some] at members
  cases known : StatementKind.ofName? name with
  | none => exact .refl _
  | some k =>
    rw [known, Option.elim_some] at members
    cases k with
    | bind =>
      obtain ⟨name, value, -⟩ := members
      exact name.textAt.bind fun _ _ => value.exprAt.map _
    | effect => exact members.1.exprAt.map _

theorem same_decl (h : AgreeOn ms ms' (Role.slots .decl ms)) :
    Same (decl (.value (.object ms))) (decl (.value (.object ms'))) := by
  rw [decl, decl]
  obtain ⟨kind, members⟩ := h
  refine kind.textAt.bind fun name read => ?_
  rw [kindName?_of_textAt read, Option.elim_some] at members
  obtain ⟨exported, members⟩ := members
  refine exported.optionalBoolAt.bind fun _ _ => ?_
  cases known : DeclKind.ofName? name with
  | none => exact .refl _
  | some k =>
    rw [known, Option.elim_some] at members
    cases k with
    | const =>
      obtain ⟨name, type, value, -⟩ := members
      exact name.textAt.bind fun _ _ => type.optionalTextAt.bind fun _ _ => value.exprAt.map _
    | function =>
      obtain ⟨name, params, returnType, body, -⟩ := members
      exact name.textAt.bind fun _ _ => params.paramsAt.bind fun _ _ => returnType.optionalTextAt.bind fun _ _ =>
        body.exprAt.map _

theorem same_namedExpr (h : AgreeOn ms ms' (Role.slots .namedExpr ms)) :
    Same (namedExpr (.value (.object ms))) (namedExpr (.value (.object ms'))) := by
  rw [namedExpr, namedExpr]
  obtain ⟨name, value, -⟩ := h
  exact name.textAt.bind fun _ _ => value.exprAt.map _

theorem same_namedPattern (h : AgreeOn ms ms' (Role.slots .namedPattern ms)) :
    Same (Decode.namedPattern (.value (.object ms))) (Decode.namedPattern (.value (.object ms'))) := by
  rw [namedPattern, namedPattern]
  obtain ⟨name, pattern, -⟩ := h
  exact name.textAt.bind fun _ _ => pattern.patternAt.map _

theorem same_arm (h : AgreeOn ms ms' (Role.slots .arm ms)) :
    Same (arm (.value (.object ms))) (arm (.value (.object ms'))) := by
  rw [arm, arm]
  obtain ⟨pattern, body, guard, -⟩ := h
  exact pattern.patternAt.bind fun _ _ => body.exprAt.bind fun _ _ =>
    same_optional guard fun there => there.exprAt.map _

theorem same_param (h : AgreeOn ms ms' (Role.slots .param ms)) :
    Same (param (.value (.object ms))) (param (.value (.object ms'))) := by
  rw [param, param]
  obtain ⟨name, type, -⟩ := h
  exact name.textAt.bind fun _ _ => type.optionalTextAt.map _

theorem same_module (h : AgreeOn ms ms' (Role.slots .module ms)) :
    Same (Decode.module (.value (.object ms))) (Decode.module (.value (.object ms'))) := by
  rw [Decode.module, Decode.module]
  exact h.1.declsAt.map _

end Objects

end Decode

/-! ## Changes make no difference -/

namespace Role

open Decode

/-- Objects that agree on the members that they are read for are read alike. -/
theorem agrees_object (r : Role) {ms ms' : List Member} (h : ∀ slot ∈ r.slots ms, slot.AgreesIn ms ms') :
    r.Agrees (.object ms) (.object ms') := by
  refine ⟨trivial, ?_⟩
  have members := agreeOn_of_forall h
  cases r with
  | expr => exact same_expr members
  | namedExpr => exact same_namedExpr members
  | arm => exact same_arm members
  | param => exact same_param members
  | statement => exact same_statement members
  | pattern => exact same_pattern members
  | namedPattern => exact same_namedPattern members
  | decl => exact same_decl members
  | module => exact same_module members
  | listOf r => exact fun xs ys eq => nomatch eq
  | plain => trivial

/-- An array is refused by whatever reads objects only. -/
theorem same_refused {α : Type} {read : Found → Decoded α}
    (refuses : ∀ found, (∀ ms, found = .value (.object ms) → False) → read found = fail (.expected .object found))
    (xs ys : List Json) : Same (read (.value (.array xs))) (read (.value (.array ys))) := by
  have looks : (Json.array xs).LooksLike (.array ys) := trivial
  rw [refuses _ (by simp), refuses _ (by simp)]
  exact looks.same_expected .object

/-- Arrays whose elements agree are read alike, as arrays or as something that should have been an object. -/
theorem agrees_array (r : Role) {xs ys : List Json} (h : List.Forall₂ r.element.Agrees xs ys) :
    r.Agrees (.array xs) (.array ys) := by
  refine ⟨trivial, ?_⟩
  cases r with
  | listOf r =>
    rintro _ _ ⟨⟩ ⟨⟩
    exact h.imp fun _ _ agree => ⟨agree.looks, agree.reads⟩
  | plain => trivial
  | expr => exact same_refused expr.eq_2 xs ys
  | namedExpr => exact same_refused namedExpr.eq_2 xs ys
  | arm => exact same_refused arm.eq_2 xs ys
  | param => exact same_refused param.eq_2 xs ys
  | statement => exact same_refused statement.eq_2 xs ys
  | pattern => exact same_refused pattern.eq_2 xs ys
  | namedPattern => exact same_refused Decode.namedPattern.eq_2 xs ys
  | decl => exact same_refused decl.eq_2 xs ys
  | module => exact same_refused module.eq_2 xs ys

end Role

/-- **A change that should make no difference makes none.** The induction is on how deep the change lies. -/
theorem Edit.agrees {r : Role} {j j' : Json} (h : Edit r j j') : r.Agrees j j' := by
  induction h with
  | @reorder r ms ms' distinct perm =>
    refine r.agrees_object fun slot _ => ?_
    unfold Slot.AgreesIn
    rw [Json.find_congr (Json.get?_perm distinct perm)]
    exact .same _
  | @add r front back m unread =>
    refine r.agrees_object fun slot mem => ?_
    unfold Slot.AgreesIn
    rw [Json.find_insert (unread slot mem)]
    exact .same _
  | @null r front back slot mem optional missing =>
    refine r.agrees_object fun other mem' => ?_
    unfold Slot.AgreesIn
    by_cases same : other.name = slot.name
    · obtain rfl := Role.slots_unique mem' mem same
      have nothing : Json.get? other.name (front ++ back) = none := Json.get?_eq_none_iff.mpr missing
      have ordinary := (r.isTable_slots _).2 other mem optional
      refine .absent optional ?_ ?_
      · simp [Json.find, nothing, ordinary, Found.isAbsent]
      · rw [Json.get?_append, Option.or_eq_none_iff] at nothing
        simp [Json.find, Json.get?_append, Json.get?, nothing, Found.isAbsent]
    · rw [Json.find_insert (m := ⟨slot.name, .null⟩) same]
      exact .same _
  | @member r front back slot j j' mem _ ih =>
    refine r.agrees_object fun other mem' => ?_
    unfold Slot.AgreesIn
    by_cases same : other.name = slot.name
    · obtain rfl := Role.slots_unique mem' mem same
      cases before : Json.get? other.name front with
      | some value =>
        simp only [Json.find, Json.get?_append, before, Option.some_or]
        exact .same _
      | none =>
        simp only [Json.find, Json.get?_append, Json.get?, before, Option.none_or, if_true]
        exact .value ih
    · rw [← Json.find_insert (m := ⟨slot.name, j⟩) same, ← Json.find_insert (m := ⟨slot.name, j'⟩) same]
      exact .same _
  | @element r front back j j' _ ih =>
    refine r.agrees_array ?_
    have others (xs : List Json) : List.Forall₂ r.element.Agrees xs xs :=
      List.forall₂_same.mpr fun x _ => .refl _ x
    exact List.rel_append (others front) (.cons ih (others back))

/-! ## Values that differ in what is not read -/

/-- A reader gives the same outcome for values that differ only in what should make no difference in a role, under every
root: the same tree, or a failure with the same message and the same path. -/
def IgnoresUnread {α : Type} (r : Role) (read : Found → Decoded α) : Prop :=
  ∀ (j j' : Json) (root : Text), Unseen r j j' → (read (.value j)).rooted root = (read (.value j')).rooted root

theorem ignoresUnread_of {α : Type} {r : Role} {read : Found → Decoded α}
    (h : ∀ j j', r.ReadsAlike j j' → Same (read (.value j)) (read (.value j'))) : IgnoresUnread r read := by
  intro j j' root unseen
  induction unseen with
  | rel j j' edit => exact (h j j' edit.agrees.reads).rooted_eq root
  | refl j => rfl
  | symm j j' _ ih => exact ih.symm
  | trans j j' j'' _ _ ih ih' => exact ih.trans ih'

/-- **Decoding sees only the members that are read**, for trees of all four sorts and under every root. -/
theorem decoding_ignores_unread :
    IgnoresUnread .expr Decode.expr ∧ IgnoresUnread .pattern Decode.pattern ∧ IgnoresUnread .decl Decode.decl ∧
      IgnoresUnread .module Decode.module :=
  ⟨ignoresUnread_of fun _ _ read => read, ignoresUnread_of fun _ _ read => read,
    ignoresUnread_of fun _ _ read => read, ignoresUnread_of fun _ _ read => read⟩

/-- A case of `true` with one arm. -/
def caseOfTrue (arm : Json) : Json :=
  .object [⟨"kind", .string "case"⟩, ⟨"scrutinee", .object [⟨"kind", .string "bool"⟩, ⟨"value", .bool true⟩]⟩,
    ⟨"arms", .array [arm]⟩]

/-- The pattern of an arm. -/
def anyPattern : Member := ⟨"pattern", .object [⟨"kind", .string "wildcard"⟩]⟩

/-- The body of an arm, which does not name its constructor. -/
def unnamedBody : Member := ⟨"body", .object [⟨"kind", .string "construct"⟩, ⟨"args", .array []⟩]⟩

/-- The case with this arm, with `null` for the guard, the members of the arm in another order, and a member that no
case is read for. -/
def wordyCase : Json :=
  .object [⟨"kind", .string "case"⟩, ⟨"constructor", .string "Some"⟩,
    ⟨"scrutinee", .object [⟨"kind", .string "bool"⟩, ⟨"value", .bool true⟩]⟩,
    ⟨"arms", .array [.object [unnamedBody, ⟨"guard", .null⟩, anyPattern]]⟩]

theorem unseen_wordyCase : Unseen .expr (caseOfTrue (.object [anyPattern, unnamedBody])) wordyCase := by
  have inArm {a b : Json} (h : Edit .arm a b) : Edit .expr (caseOfTrue a) (caseOfTrue b) :=
    @Edit.member .expr [_, _] [] (.required "arms" (.listOf .arm)) _ _ (.tail _ (.tail _ (.head _)))
      (@Edit.element (.listOf .arm) [] [] _ _ h)
  have guard : Edit .arm (.object [anyPattern, unnamedBody]) (.object [anyPattern, ⟨"guard", .null⟩, unnamedBody]) :=
    @Edit.null .arm [anyPattern] [unnamedBody] (.orNull "guard" .expr) (by decide) rfl (by decide)
  have order : Edit .arm (.object [anyPattern, ⟨"guard", .null⟩, unnamedBody])
      (.object [unnamedBody, ⟨"guard", .null⟩, anyPattern]) :=
    .reorder (by decide) (List.reverse_perm [unnamedBody, ⟨"guard", .null⟩, anyPattern])
  have unread : Edit .expr (caseOfTrue (.object [unnamedBody, ⟨"guard", .null⟩, anyPattern])) wordyCase :=
    @Edit.add .expr [_] [_, _] ⟨"constructor", .string "Some"⟩ (by decide)
  exact ((Relation.EqvGen.rel _ _ (inArm guard)).trans _ _ _ (.rel _ _ (inArm order))).trans _ _ _ (.rel _ _ unread)

theorem decoding_ignores_unread_wordyCase :
    Unseen .expr (caseOfTrue (.object [anyPattern, unnamedBody])) wordyCase ∧
      (Decode.expr (.value (caseOfTrue (.object [anyPattern, unnamedBody])))).rooted "$" = .error (.report
        { message := "Expected a string, got function", stage := .decode, path := some "$.arms[0].body.constructor" }) ∧
      (Decode.expr (.value wordyCase)).rooted "$" = .error (.report
        { message := "Expected a string, got function", stage := .decode,
          path := some "$.arms[0].body.constructor" }) := by
  have failed : (Decode.expr (.value (caseOfTrue (.object [anyPattern, unnamedBody])))).rooted "$" = .error (.report
      { message := "Expected a string, got function"
        stage := .decode
        path := some "$.arms[0].body.constructor" }) := by
    cbv
  exact ⟨unseen_wordyCase, failed, (decoding_ignores_unread.1 _ _ "$" unseen_wordyCase).symm.trans failed⟩

end ExprScript
