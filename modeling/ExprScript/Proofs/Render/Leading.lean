import ExprScript.Proofs.Render.Compositional
import ExprScript.Proofs.Render.SelfContained

/-!
# How renderings start

After an arrow, and at the start of a statement, a brace starts a block in the target language and not a record. A
rendering starts as that of its leftmost part does (`Expr.leftmost`), which is found by going from calls, properties,
elements and methods to what they are applied to.

- `Expr.yields_first`: a rendering starts with a brace exactly if its leftmost part is a record;
- `Exposure` lists the places where this matters, and `Frame.exposure?` says which part of a node stands in one.
  `Exposes` is the invariant of code with a hole in such a place: the code of a node has it (`Frame.exposes`), and code
  around the node keeps it (`Exposes.embedded`);
- `leading_brace_iff_leftmost_record`: what is written in such a place, at any depth, starts with a brace exactly if its
  leftmost part is a record.
-/

namespace ExprScript

open Layout

/-- The brace that starts a record, or a block. -/
def openBrace : CodeUnit := unit '\x7b'

/-! ## The leftmost part -/

namespace Expr

/-- The part of an expression that its text starts with. -/
def leftmost : Expr → Expr
  | .call fn _ => fn.leftmost
  | .field target _ => target.leftmost
  | .index target _ => target.leftmost
  | .map collection _ _ => collection.leftmost
  | .filter collection _ _ => collection.leftmost
  | .fold collection _ _ _ _ => collection.leftmost
  | e => e

/-- Whether an expression starts with a part of it: with what it calls, accesses or goes through. -/
def isPostfix : Expr → Bool
  | .call .. | .field .. | .index .. | .map .. | .filter .. | .fold .. => true
  | _ => false

/-- Whether an expression is a record. -/
def isRecord : Expr → Bool
  | .record _ => true
  | _ => false

/-- The name that a name starts with: a namespace comes before the names in it. -/
def firstName? : Expr → Option Text
  | .variable name => some name
  | .qualified space name => some ((nonEmpty? space).getD name)
  | _ => none

end Expr

/-! ## The first unit of code -/

namespace Code

/-- The unit that code starts with. -/
def first? (c : Code) : Option CodeUnit := c.document.units.head?

variable {a : Code}

/-- The text of code starts with its first unit, whatever the indentation. -/
theorem head?_toText {indentation : Text} (oneLine : newline ∉ indentation) (c : Code) :
    (c.toText indentation).head? = c.first? := by
  have flush := c.isFlush_document
  rw [c.toText_eq_document oneLine, flush.text_eq true false, first?]
  cases c.document with
  | nil => rfl
  | cons x rest =>
    obtain ⟨depth, v⟩ := x
    by_cases hv : v = newline <;> simp [Document.text, Document.units, hv]

theorem first?_text (t : Text) : (Code.text t).first? = t.head? := by
  rw [first?, document_text, Document.units_ofText]

theorem first?_concat (parts : List Code) :
    (Code.concat (a :: parts)).first? = a.first?.or (Code.concat parts).first? := by
  rw [first?, document_concat, List.flatMap_cons, Document.units_append, List.head?_append, ← document_concat]
  rfl

theorem first?_append (a b : Code) : (a ++ b).first? = a.first?.or b.first? := by
  rw [first?, document_append, Document.units_append, List.head?_append]
  rfl

/-- Code that starts with a unit other than the brace. -/
def StartsPlainly (c : Code) : Prop := ∃ u, c.first? = some u ∧ u ≠ openBrace

theorem StartsPlainly.first_ne (h : a.StartsPlainly) : a.first? ≠ some openBrace := by
  obtain ⟨u, first, ne⟩ := h
  simpa [first] using ne

theorem StartsPlainly.text {t : Text} (h : t.head?.any (· != openBrace) = true) : StartsPlainly (.text t) := by
  rw [StartsPlainly, first?_text]
  cases t with
  | nil => cases h
  | cons u rest => exact ⟨u, rfl, by simpa using h⟩

theorem StartsPlainly.concat (h : a.StartsPlainly) (parts : List Code) : StartsPlainly (.concat (a :: parts)) := by
  obtain ⟨u, first, ne⟩ := h
  exact ⟨u, by rw [first?_concat, first]; rfl, ne⟩

theorem StartsPlainly.append (h : a.StartsPlainly) (b : Code) : (a ++ b).StartsPlainly := h.concat [b]

/-- A laid-out piece starts as the opening line of its first block does. -/
theorem StartsPlainly.layout (h : a.StartsPlainly) (body : List Line) (closing : Code) (lines : List Line) :
    StartsPlainly (.layout (.block a body closing :: lines)) := by
  obtain ⟨u, first, ne⟩ := h
  refine ⟨u, ?_, ne⟩
  rw [first?] at first
  rw [first?, document_layout, List.flatMap_cons, Line.document, Document.deeper_zero]
  simp [List.head?_append, first]

theorem StartsPlainly.closure (body : List Line) : StartsPlainly (.closure body) :=
  (StartsPlainly.text rfl).layout body _ []

/-- Code that starts as `a` does or, if `a` is empty, with a unit other than the brace. -/
def Continues (a c : Code) : Prop := ∃ u, u ≠ openBrace ∧ c.first? = some (a.first?.getD u)

theorem Continues.text {t : Text} (h : t.head?.any (· != openBrace) = true) : Continues a (a ++ .text t) := by
  obtain ⟨u, first, ne⟩ := StartsPlainly.text h
  refine ⟨u, ne, ?_⟩
  rw [first?_append, first]
  cases a.first? <;> rfl

theorem Continues.append {c : Code} (h : Continues a c) (b : Code) : Continues a (c ++ b) := by
  obtain ⟨u, ne, first⟩ := h
  exact ⟨u, ne, by rw [first?_append, first]; rfl⟩

theorem Continues.methodHead (a : Code) (method params : Text) : Continues a (methodHead a method params) :=
  (Continues.text rfl).append _ |>.append _ |>.append _ |>.append _

theorem Continues.first_iff {c : Code} (h : Continues a c) : c.first? = some openBrace ↔ a.first? = some openBrace := by
  obtain ⟨u, ne, first⟩ := h
  rw [first]
  cases a.first? <;> simp [ne]

end Code

/-- Every spelling of an operator starts with a text, and not with the brace. -/
theorem Dialect.startsPlainly_binary (op : BinaryOp) (args : List Code) :
    ((assemblyScriptBinary op).fill args).StartsPlainly := by
  cases op <;> exact (Code.StartsPlainly.text rfl).concat _

theorem Dialect.startsPlainly_unary (op : UnaryOp) (args : List Code) :
    ((assemblyScriptUnary op).fill args).StartsPlainly := by
  cases op <;> exact (Code.StartsPlainly.text rfl).concat _

theorem Text.head?_ne_of_isPlain {t : Text} (h : t.isPlain = true) : t.head? ≠ some openBrace := by
  cases t with
  | nil => simp
  | cons u rest =>
    rw [isPlain_cons, Bool.and_eq_true, beq_iff_eq] at h
    rintro ⟨⟩
    exact absurd h.1 (by decide)

theorem first?_recordCode (fields : List (Text × Code)) : (recordCode fields).first? = some openBrace := by
  unfold recordCode
  split
  · rw [Code.first?_text]
    rfl
  · rw [Code.first?_append, Code.first?_append, Code.first?_text]
    rfl

/-! ## The first unit of a rendering -/

theorem Yields.after {α β : Type} {Q : β → Prop} {x : Rendered α} {f : α → Rendered β} (h : ∀ a, Yields Q (f a)) :
    Yields Q (x >>= f) :=
  .bind (P := fun _ => True) (fun _ _ => trivial) fun a _ => h a

section Expressions

variable {s : Style}

/-- Of the expressions that do not start with a part of them, exactly the records start with a brace. -/
theorem Expr.yields_first_of_not_isPostfix (assemblyScript : s.dialect = .assemblyScript) {e : Expr}
    (leaf : e.isPostfix = false) (names : ∀ t ∈ e.firstName?, t.isIdentifier = true) :
    Yields (fun c => c.first? = some openBrace ↔ e.isRecord = true) (e.code s) := by
  have plain {c : Code} (h : c.StartsPlainly) : c.first? = some openBrace ↔ false = true := by simp [h.first_ne]
  have plainText {t : Text} (h : t.isPlain = true) : (Code.text t).first? = some openBrace ↔ false = true := by
    simp [Code.first?_text, Text.head?_ne_of_isPlain h]
  have named {t : Text} (h : t.isIdentifier = true) := plainText (Text.isPlain_of_isIdentifier h)
  cases e with
  | int x =>
    rw [Expr.code]
    exact .pure (plainText x.isPlain_text)
  | string t =>
    rw [Expr.code]
    exact .pure (plain (.text rfl))
  | bool b =>
    rw [Expr.code]
    cases b <;> exact .pure (plain (.text rfl))
  | list elements =>
    rw [Expr.code]
    exact .after fun cs => .pure (plain ((Code.StartsPlainly.text rfl).append _ |>.append _))
  | record fields =>
    rw [Expr.code]
    exact .after fun fs => .pure (iff_of_true (first?_recordCode fs) rfl)
  | «variable» name =>
    rw [Expr.code]
    exact .pure (named (names name rfl))
  | qualified space name =>
    rw [Expr.code]
    split
    · rename_i space' written
      have identifier : space'.isIdentifier = true := names space' (by rw [firstName?, written]; rfl)
      obtain ⟨u, rest, rfl⟩ := List.exists_cons_of_ne_nil (l := space') (by rintro rfl; cases identifier)
      refine .pure (Iff.trans ?_ (named identifier))
      rw [Code.first?_text, Code.first?_text]
      rfl
    · rename_i written
      exact .pure (named (names name (by rw [firstName?, written]; rfl)))
  | binary op left right =>
    rw [Expr.code]
    split
    · rw [assemblyScript]
      exact .after fun l => .after fun r => .pure (plain (Dialect.startsPlainly_binary _ [l, r]))
    · exact .error _
  | unary op operand =>
    rw [Expr.code]
    split
    · rw [assemblyScript]
      exact .after fun c => .pure (plain (Dialect.startsPlainly_unary _ [c]))
    · exact .error _
  | construct constructor args =>
    rw [Expr.code]
    exact .after fun cs => .pure (plain ((Code.StartsPlainly.text rfl).append _ |>.append _ |>.append _ |>.append _))
  | recordCreate recordType fields =>
    rw [Expr.code]
    exact .after fun fs => .pure (plain ((Code.StartsPlainly.text rfl).append _ |>.append _ |>.append _ |>.append _))
  | recordUpdate target updates =>
    rw [Expr.code]
    refine .after fun c => .after fun us => .pure (plain ?_)
    unfold updateCode
    split
    · exact (Code.StartsPlainly.text rfl).append _ |>.append _
    · exact (Code.StartsPlainly.text rfl).append _ |>.append _ |>.append _ |>.append _
  | ifThenElse condition yes no =>
    rw [Expr.code]
    exact .after fun c => .after fun y => .after fun n => .pure (plain (.closure _))
  | letIn bindings body =>
    rw [Expr.code]
    exact .after fun bs => .after fun b => .pure (plain (.closure _))
  | caseOf scrutinee arms =>
    rw [Expr.code]
    refine .after fun c => .after fun chain => .pure (plain ?_)
    exact ((Code.StartsPlainly.text rfl).append _ |>.append _ |>.append _ |>.append _).layout _ _ []
  | lambda params body =>
    rw [Expr.code]
    refine .after fun c => .pure (plain ?_)
    exact ((Code.StartsPlainly.text rfl).append _ |>.append _).layout _ _ []
  | tryCatch body handlers =>
    rw [Expr.code]
    exact .after fun c => .after fun chain => .pure (plain (.closure _))
  | doBlock statements result =>
    rw [Expr.code]
    exact .after fun ls => .after fun c => .pure (plain (.closure _))
  | annotate expr type =>
    rw [Expr.code]
    exact .after fun c => .pure (plain ((Code.StartsPlainly.text rfl).append _ |>.append _ |>.append _ |>.append _))
  | foreign node =>
    rw [Expr.code]
    exact .error _
  | _ => cases leaf

/-- **How a rendering starts.** It starts with a brace exactly if its leftmost part is a record. -/
theorem Expr.yields_first (assemblyScript : s.dialect = .assemblyScript) {e : Expr}
    (names : ∀ t ∈ e.leftmost.firstName?, t.isIdentifier = true) :
    Yields (fun c => c.first? = some openBrace ↔ e.leftmost.isRecord = true) (e.code s) := by
  fun_induction Expr.leftmost e with
  | case1 fn args ih =>
    rw [Expr.code]
    refine (ih names).bind fun a ha => .after fun cs => .pure (Iff.trans ?_ ha)
    exact (Code.Continues.text rfl).append _ |>.append _ |>.first_iff
  | case2 target name ih =>
    rw [Expr.code]
    refine (ih names).bind fun a ha => .pure (Iff.trans ?_ ha)
    unfold propertyCode
    split
    · exact (Code.Continues.text rfl).append _ |>.first_iff
    · exact (Code.Continues.text rfl).append _ |>.append _ |>.first_iff
  | case3 target index ih =>
    rw [Expr.code]
    refine (ih names).bind fun a ha => .after fun i => .pure (Iff.trans ?_ ha)
    exact (Code.Continues.text rfl).append _ |>.append _ |>.first_iff
  | case4 collection iterator transform ih =>
    rw [Expr.code]
    refine (ih names).bind fun a ha => .after fun c => .pure (Iff.trans ?_ ha)
    exact (Code.Continues.methodHead a _ _).append _ |>.append _ |>.first_iff
  | case5 collection iterator predicate ih =>
    rw [Expr.code]
    refine (ih names).bind fun a ha => .after fun c => .pure (Iff.trans ?_ ha)
    exact (Code.Continues.methodHead a _ _).append _ |>.append _ |>.first_iff
  | case6 collection initial accumulator iterator transform ih =>
    rw [Expr.code]
    refine (ih names).bind fun a ha => .after fun c => .after fun i => .pure (Iff.trans ?_ ha)
    exact (Code.Continues.methodHead a _ _).append _ |>.append _ |>.append _ |>.append _ |>.first_iff
  | case7 e call field index map filter fold =>
    refine Expr.yields_first_of_not_isPostfix assemblyScript ?_ names
    cases e <;> grind [Expr.isPostfix]

end Expressions

/-! ## Places where a brace starts a block -/

/-- A place where a brace starts a block. -/
inductive Exposure where
  | arrowBody
  | statement

namespace Exposure

/-- What stands before the place. -/
def mark : Exposure → Text
  | .arrowBody => "=> "
  | .statement => [newline]

/-- Whether the place is at the start of a line. -/
def startsLine : Exposure → Bool
  | .arrowBody => false
  | .statement => true

/-- A text in the place, after what stands before it, on lines that get `p` before them. -/
def written (p t : Text) (x : Exposure) : Text := x.mark ++ indented p x.startsLine t

theorem startsLineAfter_mark (atStart : Bool) (x : Exposure) : startsLineAfter atStart x.mark = x.startsLine := by
  cases x <;> rfl

/-- What stands before the place is written as it is, after the indentation of its line. -/
theorem text_mark (x : Exposure) (indentation : Text) (atStart : Bool) (n : Nat) :
    ∃ lead, ((Document.ofText x.mark).deeper n).text indentation atStart = lead ++ x.mark := by
  cases x with
  | arrowBody =>
    refine ⟨if atStart then pad indentation n else [], ?_⟩
    cases atStart <;> rfl
  | statement => exact ⟨[], rfl⟩

end Exposure

/-- The place that the hole of a node is, if it is one where a brace starts a block. -/
def Frame.exposure? : Frame → Option Exposure
  | .mapTransform .. | .filterPredicate .. | .foldTransform .. => some .arrowBody
  | .binaryLeft op _ => if BinaryOp.ofName? op = some .compose then some .arrowBody else none
  | .binaryRight op _ => if BinaryOp.ofName? op = some .pipe then some .arrowBody else none
  | .doStatement _ .effect _ _ => some .statement
  | _ => none

/-- The code of the hole is written in such a place, at a depth. -/
def Exposes (x : Exposure) (F : Code → Code) : Prop :=
  ∃ (front : Document) (outer depth : Nat) (back : Document), ∀ c : Code, (F c).document =
    front ++ (Document.ofText x.mark).deeper outer ++ c.document.deeper depth ++ back

section Places

variable {x : Exposure} {F G : Code → Code}

/-- Code around a place keeps it. -/
theorem Exposes.embedded (embeds : Embeds F) (h : Exposes x G) : Exposes x fun c => F (G c) := by
  obtain ⟨before, n, after, eq, -⟩ := embeds
  obtain ⟨front, outer, depth, back, eq'⟩ := h
  refine ⟨before ++ front.deeper n, n + outer, n + depth, back.deeper n ++ after, fun c => ?_⟩
  simp [eq, eq', Document.deeper_deeper]

/-- The code of the hole after code that ends in an arrow. -/
theorem Exposes.arrowBody {a : Code} {front : Document} (h : a.document = front ++ .ofText "=> ") (b : Code) :
    Exposes .arrowBody fun c => a ++ c ++ b :=
  ⟨front, 0, 0, b.document, fun c => by simp [h, Exposure.mark]⟩

/-- The code of the hole as the function that a composition calls last. -/
theorem Exposes.function (other : Code) :
    Exposes .arrowBody fun c => .concat ["((_arg: any) => ", c, "(", other, "(_arg)))"] :=
  ⟨.ofText "((_arg: any) ", 0, 0, .ofText "(" ++ other.document ++ .ofText "(_arg)))", fun c => by
    have arrow : Document.ofText "((_arg: any) => " = .ofText "((_arg: any) " ++ .ofText "=> " := rfl
    simp [arrow, Exposure.mark]⟩

theorem Exposes.append (h : Exposes x F) (b : Code) : Exposes x fun c => F c ++ b := by
  obtain ⟨front, outer, depth, back, eq⟩ := h
  exact ⟨front, outer, depth, back ++ b.document, fun c => by simp [eq]⟩

theorem document_methodHead (collection : Code) (method params : Text) :
    (methodHead collection method params).document =
      (collection ++ "." ++ method ++ "((" ++ params ++ ") ").document ++ .ofText "=> " := by
  have arrow : Document.ofText ") => " = .ofText ") " ++ .ofText "=> " := rfl
  simp only [methodHead, Code.document_append, Code.document_text, arrow, List.append_assoc]

/-- The code of the hole is the statement on one of several lines, and what stands before it ends its line. -/
def IsStatementAmong (F : Code → List Line) : Prop :=
  ∃ front back, (∀ l ∈ front, ∃ content, l = .line content) ∧ F = fun c => front ++ .line (c ++ ";") :: back

theorem settles_statement {s : Style} (before after : List Statement) :
    Settles s IsStatementAmong fun e => Statement.lines s (before ++ .effect e :: after) := by
  induction before with
  | nil =>
    simp only [List.nil_append, Statement.lines]
    exact .hole (.after _ fun back _ => .pure ⟨[], back, by simp, rfl⟩)
  | cons first rest ih =>
    cases first with
    | bind name value =>
      simp only [List.cons_append, Statement.lines]
      refine .after _ fun c _ => ih.bind ?_
      rintro _ ⟨front, back, lines, rfl⟩
      exact .pure ⟨Code.constLine name c :: front, back, List.forall_mem_cons.mpr ⟨⟨_, rfl⟩, lines⟩, rfl⟩
    | effect e =>
      simp only [List.cons_append, Statement.lines]
      refine .after _ fun c _ => ih.bind ?_
      rintro _ ⟨front, back, lines, rfl⟩
      exact .pure ⟨.line (c ++ ";") :: front, back, List.forall_mem_cons.mpr ⟨⟨_, rfl⟩, lines⟩, rfl⟩
    | foreign node =>
      simp only [List.cons_append, Statement.lines]
      exact .error _

/-- After the line end before them, lines end in a line end. -/
theorem Line.exists_documents_eq {lines : List Line} (h : ∀ l ∈ lines, ∃ content, l = .line content) (level : Nat) :
    ∃ front outer, (0, newline) :: Line.documents level lines = front ++ [(outer, newline)] := by
  obtain rfl | ⟨init, last, rfl⟩ := List.eq_nil_or_concat lines
  · exact ⟨[], 0, by simp⟩
  · obtain ⟨content, rfl⟩ := h last (by simp)
    exact ⟨(0, newline) :: (init.flatMap (Line.document level) ++ content.document.deeper level), level, by
      simp [Line.document]⟩

theorem IsStatementAmong.exposes {H : Code → List Line} (h : IsStatementAmong H) (lines : List Line) :
    Exposes .statement fun c => .closure (H c ++ lines) := by
  obtain ⟨front, back, ends, rfl⟩ := h
  obtain ⟨before, outer, eq⟩ := Line.exists_documents_eq ends 1
  refine ⟨.ofText "(() => \x7b" ++ before, outer, 1, (Document.ofText ";").deeper 1 ++ (1, newline) ::
    Line.documents 1 (back ++ lines) ++ .ofText "\x7d)()", fun c => ?_⟩
  have mark : (Document.ofText Exposure.statement.mark).deeper outer = [(outer, newline)] := rfl
  rw [mark, List.append_assoc (Document.ofText "(() => \x7b"), ← eq]
  simp [Code.closure, Line.document]

/-- **The code of a node** has the hole in the place that it is said to be in. -/
theorem Frame.exposes {s : Style} (assemblyScript : s.dialect = .assemblyScript) {f : Frame}
    (h : f.exposure? = some x) : Settles s (Exposes x) fun e => (f.fill e).code s := by
  unfold exposure? at h
  split at h
  case h_1 collection iterator =>
    cases h
    simp only [fill, Expr.code]
    exact .after _ fun a _ => .hole (.pure (.arrowBody (document_methodHead a _ _) _))
  case h_2 collection iterator =>
    cases h
    simp only [fill, Expr.code]
    exact .after _ fun a _ => .hole (.pure (.arrowBody (document_methodHead a _ _) _))
  case h_3 collection initial accumulator iterator =>
    cases h
    simp only [fill, Expr.code]
    refine .after _ fun a _ => .hole (.after _ fun i _ => .pure ?_)
    exact (Exposes.arrowBody (document_methodHead a _ _) _).append _ |>.append _
  case h_4 op right =>
    rw [Option.ite_none_right_eq_some] at h
    obtain ⟨name, ⟨⟩⟩ := h
    simp only [fill, Expr.code, name, assemblyScript]
    exact .hole (.after _ fun r _ => .pure (.function r))
  case h_5 op left =>
    rw [Option.ite_none_right_eq_some] at h
    obtain ⟨name, ⟨⟩⟩ := h
    simp only [fill, Expr.code, name, assemblyScript]
    exact .after _ fun l _ => .hole (.pure (.function l))
  case h_6 before after result =>
    cases h
    simp only [fill, StatementFrame.fill, Expr.code]
    exact (settles_statement before after).bind fun H hH => .after _ fun c _ => .pure (hH.exposes _)
  case h_7 => cases h

/-- Code in such a place, as texts. What stands before the place does not depend on the code. -/
theorem Exposes.toText_eq (h : Exposes x F) {indentation : Text} (oneLine : newline ∉ indentation) :
    ∃ before depth, ∀ c : Code, ∃ after, (F c).toText indentation =
      before ++ x.written (pad indentation depth) (c.toText indentation) ++ after := by
  obtain ⟨front, outer, depth, back, eq⟩ := h
  obtain ⟨lead, mark⟩ := x.text_mark indentation (startsLineAfter true front.units) outer
  refine ⟨front.text indentation true ++ lead, depth, fun c => ?_⟩
  have place : startsLineAfter true (front ++ (Document.ofText x.mark).deeper outer).units = x.startsLine := by
    rw [Document.units_append, startsLineAfter_append, Document.units_deeper, Document.units_ofText,
      Exposure.startsLineAfter_mark]
  refine ⟨back.text indentation (startsLineAfter true
    (front ++ (Document.ofText x.mark).deeper outer ++ c.document.deeper depth).units), ?_⟩
  rw [Code.toText_eq_document oneLine, eq, Document.text_append, Document.text_append, Document.text_append, mark,
    place, c.text_deeper oneLine, Exposure.written]
  simp only [List.append_assoc]

end Places

/-- **Records at the start.** Take an expression in a place where a brace starts a block: as the body of an arrow or as
a statement, in a well-formed expression that is rendered. Its text stands there in the text of the whole, after what
stands before the place. It starts with a brace exactly if its leftmost part is a record. -/
theorem leading_brace_iff_leftmost_record (s : Style) (assemblyScript : s.dialect = .assemblyScript)
    (indentation : Text) (oneLine : newline ∉ indentation) (C : Context) (reached : C.isReached = true) (f : Frame)
    (x : Exposure) (exposed : f.exposure? = some x) :
    ∃ (before : Text) (depth : Nat), ∀ (e : Expr) (whole : Text), (C.fill (f.fill e)).isWellFormed = true →
      (∀ name ∈ e.leftmost.firstName?, name.isIdentifier = true) →
      (C.fill (f.fill e)).render s indentation = .ok whole →
      ∃ t after, e.render s indentation = .ok t ∧ whole = before ++ x.written (pad indentation depth) t ++ after ∧
        (t.head? = some openBrace ↔ e.leftmost.isRecord = true) := by
  by_cases possible : ∃ e₀ : Expr, (C.fill (f.fill e₀)).isWellFormed = true
  · obtain ⟨e₀, wellFormed⟩ := possible
    have frame : Settles s (Exposes x) fun e => (f.fill e).code s := Frame.exposes assemblyScript exposed
    have around : Settles s Embeds fun e => (C.fill e).code s := C.settles assemblyScript wellFormed reached
    have settled : Settles s (Exposes x) fun e => (C.fill (f.fill e)).code s :=
      around.comp_of (fun embeds exposes => Exposes.embedded embeds exposes) frame
    rcases settled.ok_cases with never | ⟨F, exposes, made⟩
    · refine ⟨[], 0, fun e whole _ _ rendered => ?_⟩
      obtain ⟨c, code, -⟩ := Expr.code_of_render rendered
      exact absurd code (never e c)
    · obtain ⟨before, depth, text⟩ := exposes.toText_eq oneLine
      refine ⟨before, depth, fun e whole _ names rendered => ?_⟩
      obtain ⟨_, wholeCode, rfl⟩ := Expr.code_of_render rendered
      obtain ⟨c, code, rfl⟩ := made e _ wholeCode
      obtain ⟨after, eq⟩ := text c
      refine ⟨c.toText indentation, after, Expr.render_of_code code, eq, ?_⟩
      rw [c.head?_toText oneLine]
      exact Expr.yields_first assemblyScript names c code
  · exact ⟨[], 0, fun e _ wellFormed => absurd ⟨e, wellFormed⟩ possible⟩

/-- The body of a function. -/
def inFunction : Context := [.lambdaBody [⟨"xs", none⟩]]

/-- A property of a record, which starts with the brace of the record. -/
def propertyOfRecord : Expr := .field (.record [⟨"a", .variable "x"⟩]) "a"

/-- A call of a function with a name. -/
def namedCall : Expr := .call (.variable "log") [.variable "x"]

theorem leading_brace_propertyOfRecord_namedCall :
    (∃ (before : Text) (depth : Nat) (t after : Text), propertyOfRecord.render {} Builder.twoSpaces = .ok t ∧
      "((xs) => \x7b\n  return xs.map((x) => \x7b a: x \x7d.a);\n\x7d)" =
        before ++ Exposure.arrowBody.written (pad Builder.twoSpaces depth) t ++ after ∧
      t.head? = some openBrace) ∧
    (∃ (before : Text) (depth : Nat) (t after : Text), namedCall.render {} Builder.twoSpaces = .ok t ∧
      "((xs) => \x7b\n  return (() => \x7b\n    log(x);\n    return x;\n  \x7d)();\n\x7d)" =
        before ++ Exposure.statement.written (pad Builder.twoSpaces depth) t ++ after ∧
      t.head? ≠ some openBrace) := by
  have oneLine : newline ∉ Builder.twoSpaces := by decide
  constructor
  · obtain ⟨before, depth, spec⟩ := leading_brace_iff_leftmost_record {} rfl _ oneLine inFunction rfl
      (.mapTransform (.variable "xs") "x") .arrowBody rfl
    obtain ⟨t, after, rendered, eq, starts⟩ := spec propertyOfRecord _ rfl (fun _ h => by cases h) rfl
    exact ⟨before, depth, t, after, rendered, eq, starts.mpr rfl⟩
  · obtain ⟨before, depth, spec⟩ := leading_brace_iff_leftmost_record {} rfl _ oneLine inFunction rfl
      (.doStatement [] .effect [] (.variable "x")) .statement rfl
    have named : ∀ name ∈ namedCall.leftmost.firstName?, name.isIdentifier = true := by
      rintro _ ⟨⟩
      decide
    obtain ⟨t, after, rendered, eq, starts⟩ := spec namedCall _ rfl named rfl
    exact ⟨before, depth, t, after, rendered, eq, mt starts.mp (by decide)⟩

/-- A list of records, made by a function without a block. -/
def mapToRecord : Expr := .map (.variable "xs") "x" (.record [⟨"a", .variable "x"⟩])

/-- The record that the function should give is where its block would be. -/
theorem mapToRecord_reads_as_block : mapToRecord.isWellFormed = true ∧
    (∀ t ∈ mapToRecord.verbatim, t.isIdentifier = true) ∧
    mapToRecord.render {} Builder.twoSpaces = .ok "xs.map((x) => \x7b a: x \x7d)" :=
  ⟨rfl, by decide, rfl⟩

end ExprScript
