import ExprScript.Proofs.Lexical.Code
import ExprScript.Proofs.Tree.Verbatim
import ExprScript.Render.Module

/-!
# Self-contained forms of code

What rendering makes of self-contained parts is self-contained: each form of code is a template for its parts, and the
templates of the dialect are checked one by one. Keys and names of fields may be any texts.

- `Branch.IsSelfContained.lines` and the rules of `Chain.IsSelfContained` are about branches and chains of them;
- `Ref.isSelfContained` and the rules of `Matcher.IsSelfContained` are about places in a value and tests on them.
-/

namespace ExprScript

/-! ## The dialect -/

namespace Dialect

theorem isSelfContained_binary (op : BinaryOp) : (assemblyScriptBinary op).isSelfContained = true := by
  cases op <;> decide

theorem isSelfContained_unary (op : UnaryOp) : (assemblyScriptUnary op).isSelfContained = true := by
  cases op <;> decide

end Dialect

/-! ## Forms of code -/

section Forms

open Template Code

variable {c target : Code}

theorem isSelfContained_keyText (name : Text) : (keyText name).isSelfContained = true := by
  unfold keyText
  split
  · rename_i identifier
    exact Text.isSelfContained_of_isPlain (Text.isPlain_of_isIdentifier identifier)
  · exact Quoted.isSelfContained_encode name

theorem isSelfContained_entries {fields : List (Text × Code)} (h : ∀ f ∈ fields, f.2.IsSelfContained) :
    (recordCode.entries fields).IsSelfContained := by
  refine .join rfl (List.forall_mem_map.mpr fun f mem => ?_)
  exact .append (.append (.text (isSelfContained_keyText f.1)) (.text rfl)) (h f mem)

theorem isSelfContained_record {fields : List (Text × Code)} (h : ∀ f ∈ fields, f.2.IsSelfContained) :
    (recordCode fields).IsSelfContained := by
  unfold recordCode
  split
  · exact .text rfl
  · exact isSelfContained_of_template ["\x7b ", 0, " \x7d"] [recordCode.entries fields] (by simp [fillPiece])
      (by decide) (by simpa using isSelfContained_entries h)

theorem isSelfContained_update (ht : target.IsSelfContained) {updates : List (Text × Code)}
    (h : ∀ f ∈ updates, f.2.IsSelfContained) : (updateCode target updates).IsSelfContained := by
  unfold updateCode
  split
  · exact isSelfContained_of_template ["(\x7b ...", 0, " \x7d)"] [target] (by simp [fillPiece]) (by decide)
      (by simpa using ht)
  · exact isSelfContained_of_template ["(\x7b ...", 0, ", ", 1, " \x7d)"] [target, recordCode.entries updates]
      (by simp [fillPiece, updateHead]) (by decide) (by simpa using ⟨ht, isSelfContained_entries h⟩)

theorem isSelfContained_property (h : target.IsSelfContained) (name : Text) :
    (propertyCode target name).IsSelfContained := by
  unfold propertyCode
  split
  · rename_i identifier
    have plain := Text.isPlain_of_isIdentifier identifier
    exact .append (.append h (.text rfl)) (.text (Text.isSelfContained_of_isPlain plain))
  · exact isSelfContained_of_template [0, "[", 1, "]"] [target, .text (Quoted.encode name)] (by simp [fillPiece])
      (by decide) (by simpa using ⟨h, .text (Quoted.isSelfContained_encode name)⟩)

theorem isSelfContained_closure {lines : List Line} (h : ∀ l ∈ lines, l.IsSelfContained) :
    (Code.closure lines).IsSelfContained := by
  refine .layout (List.forall_mem_singleton.mpr ?_)
  exact Line.isSelfContained_of_template ["(() => \x7b", .text [newline], 0, "\x7d)()"] [.layout lines]
    (by simp [fillPiece]) (by decide) (by simpa using .layout h)

theorem isSelfContained_returnLine (h : c.IsSelfContained) : (Code.returnLine c).IsSelfContained :=
  .line (.append (.append (.text rfl) h) (.text rfl))

theorem isSelfContained_returnLines (h : c.IsSelfContained) : ∀ l ∈ [Code.returnLine c], l.IsSelfContained :=
  List.forall_mem_singleton.mpr (isSelfContained_returnLine h)

theorem isSelfContained_constLine {name : Text} (hn : name.isSelfContained = true) (h : c.IsSelfContained) :
    (Code.constLine name c).IsSelfContained :=
  .line (.append (.append (.append (.append (.text rfl) (.text hn)) (.text rfl)) h) (.text rfl))

/-- A method of a collection that is given a function. -/
theorem isSelfContained_method {collection body : Code} (hc : collection.IsSelfContained) {params : Text}
    (hp : params.isSelfContained = true) (hb : body.IsSelfContained) (method : Text)
    (hm : method.isSelfContained = true) : (methodHead collection method params ++ body ++ ")").IsSelfContained :=
  isSelfContained_of_template [0, ".", 1, "((", 2, ") => ", 3, ")"] [collection, .text method, .text params, body]
    (by simp [fillPiece, methodHead]) (by decide) (by simpa using ⟨hc, .text hm, .text hp, hb⟩)

theorem mem_of_nonEmpty? {type : Option Text} {t : Text} (h : nonEmpty? type = some t) : t ∈ type.toList := by
  unfold nonEmpty? at h
  split at h
  · cases h
  · exact h ▸ List.mem_singleton_self t

theorem isSelfContained_params {params : List Param}
    (h : ∀ t ∈ params.flatMap Param.verbatim, t.isSelfContained = true) :
    (Param.list params).isSelfContained = true := by
  refine Text.isSelfContained_join rfl (List.forall_mem_map.mpr fun p mem => ?_)
  have own : ∀ t ∈ p.verbatim, t.isSelfContained = true := fun t ht => h t (List.mem_flatMap.mpr ⟨p, mem, ht⟩)
  obtain ⟨name, type⟩ := p
  obtain ⟨hn, ht⟩ := List.forall_mem_cons.mp own
  unfold Param.text
  split
  · rename_i type written
    exact Text.isSelfContained_append (Text.isSelfContained_append hn rfl) (ht type (mem_of_nonEmpty? written))
  · exact hn

theorem isSelfContained_lambda {params : List Param}
    (hp : ∀ t ∈ params.flatMap Param.verbatim, t.isSelfContained = true) (h : c.IsSelfContained) :
    (lambdaCode params c).IsSelfContained := by
  refine .layout (List.forall_mem_singleton.mpr ?_)
  exact Line.isSelfContained_of_template ["((", 0, ") => \x7b", .text [newline], 1, "\x7d)"]
    [.text (Param.list params), .layout [Code.returnLine c]] (by simp [fillPiece]) (by decide)
    (by simpa using ⟨.text (isSelfContained_params hp), .layout (isSelfContained_returnLines h)⟩)

theorem isSelfContained_exportText (exported : Bool) : (exportText exported).isSelfContained = true := by
  cases exported <;> rfl

theorem isSelfContained_typeText {type : Option Text} (h : ∀ t ∈ type.toList, t.isSelfContained = true) :
    (typeText type).isSelfContained = true := by
  unfold typeText
  split
  · rename_i type written
    exact Text.isSelfContained_append rfl (h type (mem_of_nonEmpty? written))
  · rfl

section Declarations

variable (exported : Bool) {name : Text} (hn : name.isSelfContained = true) {type : Option Text}
  (ht : ∀ t ∈ type.toList, t.isSelfContained = true)

include hn ht

theorem isSelfContained_constDecl (h : c.IsSelfContained) :
    (Line.line (exportText exported ++ "const " ++ name ++ typeText type ++ " = " ++ c ++ ";")).IsSelfContained := by
  have head : (.text (exportText exported) ++ "const " ++ name ++ typeText type : Code).IsSelfContained :=
    .append (.append (.append (.text (isSelfContained_exportText exported)) (.text rfl)) (.text hn))
      (.text (isSelfContained_typeText ht))
  exact .line (.append (.append (.append head (.text rfl)) h) (.text rfl))

theorem isSelfContained_functionDecl {params : List Param}
    (hp : ∀ t ∈ params.flatMap Param.verbatim, t.isSelfContained = true) (h : c.IsSelfContained) :
    (Line.block (functionHead name params type exported) [Code.returnLine c] "\x7d").IsSelfContained :=
  Line.isSelfContained_of_template [0, "function ", 1, "(", 2, ")", 3, " \x7b", .text [newline], 4, "\x7d"]
    [.text (exportText exported), .text name, .text (Param.list params), .text (typeText type),
      .layout [Code.returnLine c]]
    (by simp [fillPiece, functionHead]) (by decide)
    (by simpa using ⟨.text (isSelfContained_exportText exported), .text hn, .text (isSelfContained_params hp),
      .text (isSelfContained_typeText ht), .layout (isSelfContained_returnLines h)⟩)

end Declarations

end Forms

/-! ## Branches and chains -/

section Chains

open Template Code

/-- A branch in which every name and code is self-contained. -/
def Branch.IsSelfContained (b : Branch) : Prop :=
  (∀ x ∈ b.bindings, x.1.isSelfContained = true ∧ x.2.IsSelfContained) ∧ b.body.IsSelfContained

theorem Branch.IsSelfContained.lines {b : Branch} (h : b.IsSelfContained) : ∀ l ∈ b.lines, l.IsSelfContained := by
  refine List.forall_mem_append.mpr ⟨List.forall_mem_map.mpr fun x mem => ?_, List.forall_mem_singleton.mpr ?_⟩
  · exact isSelfContained_constLine (h.1 x mem).1 (h.1 x mem).2
  · exact isSelfContained_returnLine h.2

/-- A chain of which the lines are self-contained, wherever it starts. -/
def Chain.IsSelfContained (chain : Chain) : Prop := ∀ opened, ∀ l ∈ chain.lines opened, l.IsSelfContained

theorem isSelfContained_else {lines : List Line} (h : ∀ l ∈ lines, l.IsSelfContained) :
    (Line.block " else \x7b" lines "\x7d").IsSelfContained :=
  Line.isSelfContained_of_template [" else \x7b", .text [newline], 0, "\x7d"] [.layout lines]
    (by simp [fillPiece]) (by decide) (by simpa using .layout h)

theorem isSelfContained_ifBlock (opened : Bool) {test : Code} (ht : test.IsSelfContained) {lines : List Line}
    (h : ∀ l ∈ lines, l.IsSelfContained) :
    (Line.block (Chain.openingCode opened test) lines "\x7d").IsSelfContained := by
  cases opened with
  | false =>
    exact Line.isSelfContained_of_template ["if (", 0, ") \x7b", .text [newline], 1, "\x7d"] [test, .layout lines]
      (by simp [fillPiece, Chain.openingCode]) (by decide) (by simpa using ⟨ht, .layout h⟩)
  | true =>
    exact Line.isSelfContained_of_template [" else if (", 0, ") \x7b", .text [newline], 1, "\x7d"] [test, .layout lines]
      (by simp [fillPiece, Chain.openingCode]) (by decide) (by simpa using ⟨ht, .layout h⟩)

theorem isSelfContained_guard {guard : Code} (hg : guard.IsSelfContained) {bindings : List (Text × Code)}
    (h : ∀ x ∈ bindings, x.1.isSelfContained = true ∧ x.2.IsSelfContained) :
    (Chain.guardCode bindings guard).IsSelfContained := by
  unfold Chain.guardCode
  split
  · exact isSelfContained_of_template ["(", 0, ")"] [guard] (by simp [fillPiece]) (by decide) (by simpa using hg)
  · exact isSelfContained_closure (Branch.IsSelfContained.lines ⟨h, hg⟩)

theorem Chain.IsSelfContained.fallback {statement : Code} (h : statement.IsSelfContained) :
    (Chain.fallback statement).IsSelfContained := by
  have line : ∀ l ∈ [Line.line statement], l.IsSelfContained := List.forall_mem_singleton.mpr (.line h)
  intro opened
  cases opened with
  | false => exact line
  | true => simpa [Chain.lines] using ⟨isSelfContained_else line, .lineEnd⟩

theorem Chain.IsSelfContained.otherwise {branch : Branch} (h : branch.IsSelfContained) :
    (Chain.otherwise branch).IsSelfContained := by
  intro opened
  cases opened with
  | false => exact h.lines
  | true => simpa [Chain.lines] using ⟨isSelfContained_else h.lines, .lineEnd⟩

theorem Chain.IsSelfContained.test {condition : Code} (hc : condition.IsSelfContained) {guard : Option Code}
    (hg : ∀ g ∈ guard, g.IsSelfContained) {branch : Branch} (hb : branch.IsSelfContained) {rest : Chain}
    (hr : rest.IsSelfContained) : (Chain.test condition guard branch rest).IsSelfContained := by
  have tested : (Chain.testCode condition guard branch.bindings).IsSelfContained := by
    cases guard with
    | none => exact hc
    | some g => exact .append (.append hc (.text rfl)) (isSelfContained_guard (hg g rfl) hb.1)
  intro opened
  rw [Chain.lines]
  exact List.forall_mem_cons.mpr ⟨isSelfContained_ifBlock opened tested hb.lines, hr true⟩

theorem isSelfContained_conditional {condition yes no : Code} (hc : condition.IsSelfContained)
    (hy : yes.IsSelfContained) (hn : no.IsSelfContained) : (conditionalCode condition yes no).IsSelfContained := by
  have yesBlock := isSelfContained_ifBlock false hc (isSelfContained_returnLines hy)
  have noBlock := isSelfContained_else (isSelfContained_returnLines hn)
  exact isSelfContained_closure (by simpa using ⟨yesBlock, noBlock, .lineEnd⟩)

theorem isSelfContained_case {s : Style} (assemblyScript : s.dialect = .assemblyScript)
    (matchVar : s.matchVar.isSelfContained = true) {scrutinee : Code}
    (hs : scrutinee.IsSelfContained) {chain : Chain} (h : chain.IsSelfContained) :
    (caseCode s scrutinee chain).IsSelfContained := by
  refine .layout (List.forall_mem_singleton.mpr ?_)
  exact Line.isSelfContained_of_template ["((", 0, ": ", "any", ") => \x7b", .text [newline], 1, "\x7d)(", 2, ")"]
    [.text s.matchVar, .layout (chain.lines false), scrutinee]
    (by simp [fillPiece, applicationCode, assemblyScript, Dialect.assemblyScript]) (by decide)
    (by simpa using ⟨.text matchVar, .layout (h false), hs⟩)

theorem isSelfContained_try {s : Style} (assemblyScript : s.dialect = .assemblyScript)
    (errorVar : s.errorVar.isSelfContained = true) {body : Code}
    (hb : body.IsSelfContained) {chain : Chain} (h : chain.IsSelfContained) :
    (tryCode s body chain).IsSelfContained := by
  have tried : (Line.block "try \x7b" [Code.returnLine body] "\x7d").IsSelfContained :=
    Line.isSelfContained_of_template ["try \x7b", .text [newline], 0, "\x7d"] [.layout [Code.returnLine body]]
      (by simp [fillPiece]) (by decide) (by simpa using .layout (isSelfContained_returnLines hb))
  have caught : (Line.block (" catch (" ++ s.errorVar ++ ": " ++ s.dialect.anyType ++ ") \x7b" : Code)
      (chain.lines false) "\x7d").IsSelfContained :=
    Line.isSelfContained_of_template [" catch (", 0, ": ", "any", ") \x7b", .text [newline], 1, "\x7d"]
      [.text s.errorVar, .layout (chain.lines false)]
      (by simp [fillPiece, assemblyScript, Dialect.assemblyScript]) (by decide)
      (by simpa using ⟨.text errorVar, .layout (h false)⟩)
  exact isSelfContained_closure (by simpa using ⟨tried, caught, .lineEnd⟩)

end Chains

/-! ## Tests -/

section Tests

open Template Code

variable {value : Code}

theorem isSelfContained_ofNat (n : Nat) : (Code.text (Text.ofNat n)).IsSelfContained :=
  .text (Text.isSelfContained_of_isPlain (Text.isPlain_ofNat n))

/-- The places in a value have self-contained code if the value has. -/
theorem Ref.isSelfContained (hv : value.IsSelfContained) (place : Ref) :
    (place.code .assemblyScript value).IsSelfContained := by
  induction place with
  | root => exact hv
  | argument of i arity ih =>
    rw [Ref.code]
    split
    · exact isSelfContained_fill (by decide) (by simpa using ⟨ih, isSelfContained_ofNat i, isSelfContained_ofNat arity⟩)
    · exact isSelfContained_fill (by decide) (by simpa using ⟨ih, isSelfContained_ofNat i, isSelfContained_ofNat arity⟩)
  | property of name ih => exact isSelfContained_property ih name
  | element of i ih =>
    exact isSelfContained_of_template [0, "[", 1, "]"] [of.code .assemblyScript value, .text (Text.ofNat i)]
      (by simp [fillPiece, Ref.code]) (by decide) (by simpa using ⟨ih, isSelfContained_ofNat i⟩)
  | slice of start ih => exact isSelfContained_fill (by decide) (by simpa using ⟨ih, isSelfContained_ofNat start⟩)

/-- A test of which the code is self-contained. -/
def Test.IsSelfContained (value : Code) (test : Test) : Prop := (test.code .assemblyScript value).IsSelfContained

theorem Test.codes_eq (d : Dialect) (value : Code) (tests : List Test) :
    Test.codes d value tests = tests.map (Test.code d value) := by
  induction tests with
  | nil => rw [Test.codes, List.map_nil]
  | cons test rest ih => rw [Test.codes, ih, List.map_cons]

theorem Test.IsSelfContained.all {tests : List Test} (h : ∀ test ∈ tests, test.IsSelfContained value) :
    (Test.all tests).IsSelfContained value := by
  rw [Test.IsSelfContained, Test.code, Test.codes_eq]
  exact .join rfl (List.forall_mem_map.mpr h)

theorem isSelfContained_group {c : Code} (h : c.IsSelfContained) : ("(" ++ c ++ ")" : Code).IsSelfContained :=
  isSelfContained_of_template ["(", 0, ")"] [c] (by simp [fillPiece]) (by decide) (by simpa using h)

theorem Test.IsSelfContained.any {tests : List Test} (h : ∀ test ∈ tests, test.IsSelfContained value) :
    (Test.any tests).IsSelfContained value := by
  have parts : ∀ c ∈ Test.codes .assemblyScript value tests, c.IsSelfContained := by
    rw [Test.codes_eq]
    exact List.forall_mem_map.mpr h
  rw [Test.IsSelfContained, Test.code]
  split
  · rename_i alternative eq
    exact isSelfContained_group (parts alternative (by simp [eq]))
  · exact isSelfContained_group (.join rfl (List.forall_mem_map.mpr fun c mem => isSelfContained_group (parts c mem)))

section Elementary

variable (hv : value.IsSelfContained) (place : Ref)

include hv

theorem Test.IsSelfContained.equals (literal : Expr) {code : Code} (h : code.IsSelfContained) :
    (Test.equals place literal code).IsSelfContained value :=
  isSelfContained_fill (by decide) (by simpa using ⟨place.isSelfContained hv, h⟩)

theorem Test.IsSelfContained.instanceOf {constructor : Text} (h : constructor.isSelfContained = true) :
    (Test.instanceOf place constructor).IsSelfContained value :=
  isSelfContained_fill (by decide) (by simpa using ⟨place.isSelfContained hv, .text h⟩)

theorem Test.IsSelfContained.isArray : (Test.isArray place).IsSelfContained value :=
  isSelfContained_fill (by decide) (by simpa using place.isSelfContained hv)

theorem Test.IsSelfContained.notNull : (Test.notNull place).IsSelfContained value :=
  isSelfContained_fill (by decide) (by simpa using place.isSelfContained hv)

theorem isSelfContained_length :
    (Dialect.assemblyScript.length.fill [place.code .assemblyScript value]).IsSelfContained :=
  isSelfContained_fill (by decide) (by simpa using place.isSelfContained hv)

theorem Test.IsSelfContained.lengthIs (count : Nat) : (Test.lengthIs place count).IsSelfContained value :=
  .append (.append (isSelfContained_length hv place) (.text rfl)) (isSelfContained_ofNat count)

theorem Test.IsSelfContained.lengthAtLeast (count : Nat) : (Test.lengthAtLeast place count).IsSelfContained value :=
  .append (.append (isSelfContained_length hv place) (.text rfl)) (isSelfContained_ofNat count)

end Elementary

/-- A matcher of which the test and the names are self-contained. -/
def Matcher.IsSelfContained (value : Code) (m : Matcher) : Prop :=
  m.test.IsSelfContained value ∧ ∀ b ∈ m.bindings, b.1.isSelfContained = true

theorem Matcher.IsSelfContained.conjunction {first : Test} (h : first.IsSelfContained value) {parts : List Matcher}
    (hp : ∀ m ∈ parts, m.IsSelfContained value) : (Matcher.conjunction first parts).IsSelfContained value := by
  refine ⟨.all (List.forall_mem_cons.mpr ⟨h, List.forall_mem_map.mpr fun m mem => (hp m mem).1⟩), ?_⟩
  intro b mem
  obtain ⟨m, hm, hb⟩ := List.mem_flatMap.mp mem
  exact (hp m hm).2 b hb

theorem Matcher.IsSelfContained.bindingCodes (hv : value.IsSelfContained) {m : Matcher} (h : m.IsSelfContained value) :
    ∀ x ∈ m.bindingCodes .assemblyScript value, x.1.isSelfContained = true ∧ x.2.IsSelfContained :=
  List.forall_mem_map.mpr fun b mem => ⟨h.2 b mem, b.2.isSelfContained hv⟩

end Tests

end ExprScript
