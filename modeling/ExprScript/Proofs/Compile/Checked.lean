import ExprScript.Compile
import ExprScript.Proofs.Layout.Extent
import ExprScript.Proofs.Outcome

/-!
# What checking and indentation can change

A compilation has a part that knows neither the width of the indentation nor whether to check: `attempt` reads and
decodes an input and renders it to code. `compile_eq` takes a compilation apart into this and what is done with the
code, which is made into a text and, if asked for, shown to the parser. Unless a text is too long, a compilation is thus
a rendering that is delivered (`compile_expr_eq_render`, `compile_module_eq_render`).

So the check is a filter on renderings, and errors of decoding and rendering are the same for all settings
(`check_filters_renderings`). This holds as far as texts are not too long. A text that is made on the way can be too
long for one width and not for another, and then this is the failure, also where an input cannot be rendered
(`wide_indentation_hides_render_error`).
-/

namespace ExprScript

/-! ## The part without a width -/

/-- Reads, decodes and renders an input. What cannot be rendered comes with the extents of the texts that are made
before. -/
def attempt (module : Bool) (source : Text) : Except CompileError (Except (RenderError × List Extent) Code) := do
  let j ← readJson source
  if module then
    let m ← (Decode.module (.value j)).mapError .decode
    return (m.code {}).mapError fun e => (e, m.unfinished {})
  else
    let e ← (Decode.expr (.value j)).mapError .decode
    return (e.code {}).mapError fun error => (error, e.unfinished {})

/-- The longest text that is made of the text of an input: the one that is parsed, or the one that is delivered. -/
def longestText (mode : CheckMode) (check : Bool) (body : Text) : Text :=
  if check then Check.wrapped mode body else body ++ ending mode

/-- What is done with the text of an input: it is checked, if asked for, and gets its ending. -/
def deliver (parser : SyntaxParser) (mode : CheckMode) (check : Bool) (body : Text) : Except CompileError Text :=
  if maxTextLength < (longestText mode check body).length then .error .tooLong
  else if check then (assertValid parser mode body).map fun _ => body ++ ending mode
  else .ok (body ++ ending mode)

/-- What comes of an attempt. -/
def settle (parser : SyntaxParser) (s : Settings) :
    Except (RenderError × List Extent) Code → Except CompileError Text
  | .error (e, made) => .error (.ofRender s.indent made e)
  | .ok code => deliver parser (.ofModule s.module) s.check (code.toText (spaces s.indent))

theorem length_longestText (mode : CheckMode) (check : Bool) (body : Text) : (longestText mode check body).length =
    body.length + (if check then Check.wrapped mode [] else ending mode).length := by
  cases check with
  | false => exact List.length_append
  | true =>
    cases mode with
    | expression => simp [longestText, Check.wrapped]; omega
    | module => simp [longestText, Check.wrapped]

theorem deliver_unchecked (parser : SyntaxParser) (mode : CheckMode) (body : Text) : deliver parser mode false body =
    if maxTextLength < (body ++ ending mode).length then .error .tooLong else .ok (body ++ ending mode) := rfl

theorem deliver_checked (parser : SyntaxParser) (mode : CheckMode) (body : Text) : deliver parser mode true body =
    if maxTextLength < (Check.wrapped mode body).length then .error .tooLong
    else (assertValid parser mode body).map fun _ => body ++ ending mode := rfl

/-- A parser is not asked about the length of a text. -/
theorem deliver_eq_tooLong_iff {parser : SyntaxParser} {mode : CheckMode} {check : Bool} {body : Text} :
    deliver parser mode check body = .error .tooLong ↔ maxTextLength < (longestText mode check body).length := by
  have valid : assertValid parser mode body ≠ .error .tooLong := by
    rw [assertValid]
    split <;> simp
  rw [deliver]
  by_cases long : maxTextLength < (longestText mode check body).length
  · simp [long]
  · cases check with
    | false => simp [long]
    | true =>
      simp only [long, if_true, if_false, iff_false]
      cases asked : assertValid parser mode body with
      | error e => simpa [asked, Except.map] using valid
      | ok => simp [Except.map]

/-- What is delivered is no longer than what is parsed. -/
theorem length_delivered_le (mode : CheckMode) (body : Text) :
    (body ++ ending mode).length ≤ (Check.wrapped mode body).length := by
  have parsed : (Check.wrapped mode body).length = body.length + (Check.wrapped mode []).length :=
    length_longestText mode true body
  have shorter : (ending mode).length ≤ (Check.wrapped mode []).length := by cases mode <;> decide
  rw [List.length_append, parsed]
  omega

theorem get_textOf (parser : SyntaxParser) (mode : CheckMode) (s : Settings) (code : Code) :
    (textOf parser mode s code).map Thunk.get = deliver parser mode s.check (code.toText (spaces s.indent)) := by
  have spaced := code.get_spaced? s.indent (if s.check then Check.wrapped mode [] else ending mode).length
  rw [← length_longestText] at spaced
  rw [textOf, deliver]
  by_cases long : maxTextLength < (longestText mode s.check (code.toText (spaces s.indent))).length
  · rw [if_pos long, Option.map_eq_none_iff] at spaced
    simp only [spaced, if_pos long]
    rfl
  · rw [if_neg long] at spaced
    obtain ⟨output, made, same⟩ := Option.map_eq_some_iff.mp spaced
    rw [if_neg long, ← same]
    simp only [made]
    cases s.check with
    | false => rfl
    | true =>
      simp only [if_true]
      cases assertValid parser mode output.get <;> rfl

/-- What comes of an input that is decoded and rendered: its code does not depend on the settings. -/
theorem compile_decoded {α : Type} (parser : SyntaxParser) (s : Settings) (decoded : Except DecodeError α)
    (code : α → Rendered Code) (unfinished : α → List Extent) :
    ((decoded.mapError .decode >>= fun x => (code x).mapError fun e => .ofRender s.indent (unfinished x) e) >>=
      textOf parser (.ofModule s.module) s).map Thunk.get =
    (decoded.mapError .decode >>= fun x => pure ((code x).mapError fun e => (e, unfinished x))) >>=
      settle parser s := by
  cases decoded with
  | error e => rfl
  | ok x =>
    show (((code x).mapError fun e => .ofRender s.indent (unfinished x) e) >>= _).map Thunk.get =
      settle parser s ((code x).mapError fun e => (e, unfinished x))
    cases code x with
    | error e => rfl
    | ok code => exact get_textOf parser (.ofModule s.module) s code

/-- **A compilation is an attempt and what comes of it**, for a width that can be indented by at all. -/
theorem compile_eq (parser : SyntaxParser) (s : Settings) (source : Text) (accepted : s.indent ≤ maxTextLength) :
    compile parser s source = attempt s.module source >>= settle parser s := by
  obtain ⟨module, width, check⟩ := s
  have narrow : ¬ maxTextLength < width := Nat.not_lt.mpr accepted
  rw [compile, rendering, attempt]
  cases readJson source with
  | error e => rfl
  | ok j =>
    simp only [Outcome.ok_bind, narrow, if_false]
    cases module with
    | false =>
      exact compile_decoded parser ⟨false, width, check⟩ (Decode.expr (.value j)) (Expr.code {}) (Expr.unfinished {})
    | true =>
      exact compile_decoded parser ⟨true, width, check⟩ (Decode.module (.value j)) (Module.code {})
        (Module.unfinished {})

/-! ## How it can fail -/

/-- The stage of a failure, if it is reported. -/
def Failure.stage? : Failure → Option Stage
  | .report r => some r.stage
  | _ => none

/-- Whether a text that is made on the way is too long: one that is made before it is found that the input cannot be
rendered, or else the longest that is made of its code. -/
def isTooLong (s : Settings) (source : Text) : Bool :=
  match attempt s.module source with
  | .error _ => false
  | .ok (.error (_, made)) => made.any (Extent.exceeds s.indent)
  | .ok (.ok code) => maxTextLength < (longestText (.ofModule s.module) s.check (code.toText (spaces s.indent))).length

theorem stage_of_decoded {α β : Type} {decoded : Except DecodeError α} {f : α → β} {e : CompileError}
    (h : (decoded.mapError .decode >>= fun x => pure (f x)) = .error e) :
    (e.failure rootName).stage? = some .decode := by
  cases decoded with
  | error e' =>
    obtain rfl := Except.error.inj h
    rfl
  | ok x => cases h

/-- Before there is code, only decoding can fail. -/
theorem stage_of_attempt {module : Bool} {source : Text} {e : CompileError} (h : attempt module source = .error e) :
    (e.failure rootName).stage? = some .decode := by
  rw [attempt] at h
  match json : readJson source with
  | .error e' =>
    rw [json] at h
    obtain rfl := Except.error.inj h
    rw [readJson] at json
    split at json
    · cases json
    · obtain rfl := Except.error.inj json
      rfl
  | .ok j =>
    rw [json, Outcome.ok_bind] at h
    cases module with
    | false => exact stage_of_decoded h
    | true => exact stage_of_decoded h

/-- What can go wrong after an attempt: a text is too long, the attempt itself has failed, or the check fails. -/
theorem settle_eq_error {parser : SyntaxParser} {s : Settings} {a : Except (RenderError × List Extent) Code}
    {e : CompileError} (h : settle parser s a = .error e) :
    e = .tooLong ∨
      (∃ e' made, a = .error (e', made) ∧ made.any (Extent.exceeds s.indent) = false ∧ e = .render e') ∨
      s.check = true ∧ ∃ issues, e = .check (.ofModule s.module) issues := by
  match a with
  | .error (e', made) =>
    rw [settle, CompileError.ofRender] at h
    split at h
    · exact .inl (Except.error.inj h).symm
    · rename_i short
      exact .inr (.inl ⟨e', made, rfl, (Bool.not_eq_true _).mp short, (Except.error.inj h).symm⟩)
  | .ok code =>
    rw [settle, deliver] at h
    split at h
    · exact .inl (Except.error.inj h).symm
    · split at h
      · rename_i check
        refine .inr (.inr ⟨check, ?_⟩)
        rw [assertValid] at h
        split at h
        · cases h
        · exact ⟨_, (Except.error.inj h).symm⟩
      · cases h

section Settings

variable {parser : SyntaxParser} {s : Settings} {source : Text} (accepted : s.indent ≤ maxTextLength)

include accepted

/-- A decode error is there before anything depends on the settings. -/
theorem attempt_of_decode_error {e : CompileError} (failed : compile parser s source = .error e)
    (stage : (e.failure rootName).stage? = some .decode) : attempt s.module source = .error e := by
  rw [compile_eq parser s source accepted] at failed
  cases attempted : attempt s.module source with
  | error e' =>
    rw [attempted] at failed
    obtain rfl := Except.error.inj failed
    rfl
  | ok a =>
    rw [attempted] at failed
    rcases settle_eq_error failed with rfl | ⟨e', made, -, -, rfl⟩ | ⟨-, issues, rfl⟩ <;>
      simp [CompileError.failure, Failure.stage?] at stage

/-- A render error is there before anything depends on the settings. It is reported if nothing that was made before is
too long. -/
theorem attempt_of_render_error {e : CompileError} (failed : compile parser s source = .error e)
    (stage : (e.failure rootName).stage? = some .render) :
    ∃ e' made, attempt s.module source = .ok (.error (e', made)) ∧ made.any (Extent.exceeds s.indent) = false ∧
      e = .render e' := by
  rw [compile_eq parser s source accepted] at failed
  cases attempted : attempt s.module source with
  | error e' =>
    rw [attempted] at failed
    obtain rfl := Except.error.inj failed
    rw [stage_of_attempt attempted] at stage
    cases stage
  | ok a =>
    rw [attempted] at failed
    rcases settle_eq_error failed with rfl | ⟨e', made, rfl, short, rfl⟩ | ⟨-, issues, rfl⟩
    · simp [CompileError.failure, Failure.stage?] at stage
    · exact ⟨e', made, rfl, short, rfl⟩
    · simp [CompileError.failure, Failure.stage?] at stage

/-- With any other settings, a render error is reported as well, unless something that was made before is too long. -/
theorem compile_of_render_error {e : CompileError} (failed : compile parser s source = .error e)
    (stage : (e.failure rootName).stage? = some .render) (parser' : SyntaxParser) (s' : Settings)
    (same : s'.module = s.module) (accepted' : s'.indent ≤ maxTextLength) :
    compile parser' s' source = if isTooLong s' source then .error .tooLong else .error e := by
  obtain ⟨e', made, attempted, -, rfl⟩ := attempt_of_render_error accepted failed stage
  rw [compile_eq parser' s' source accepted', isTooLong, same, attempted, Outcome.ok_bind, settle,
    CompileError.ofRender]
  split <;> rfl

/-- If a render error is reported, then it is so for all smaller widths. -/
theorem isTooLong_of_render_error {e : CompileError} (failed : compile parser s source = .error e)
    (stage : (e.failure rootName).stage? = some .render) (s' : Settings) (same : s'.module = s.module)
    (narrower : s'.indent ≤ s.indent) : ¬ isTooLong s' source = true := by
  obtain ⟨e', made, attempted, short, rfl⟩ := attempt_of_render_error accepted failed stage
  intro long
  rw [isTooLong, same, attempted] at long
  obtain ⟨x, mem, long⟩ := List.any_eq_true.mp long
  have long : made.any (Extent.exceeds s.indent) = true :=
    List.any_eq_true.mpr ⟨x, mem, Extent.exceeds_mono narrower long⟩
  exact Bool.false_ne_true (short.symm.trans long)

/-- A compilation fails because of a text that is too long exactly if there is one. -/
theorem compile_eq_tooLong_iff : compile parser s source = .error .tooLong ↔ isTooLong s source = true := by
  rw [compile_eq parser s source accepted, isTooLong]
  match attempted : attempt s.module source with
  | .error e =>
    have notLong : e ≠ .tooLong := by
      rintro rfl
      cases stage_of_attempt attempted
    simp [notLong]
  | .ok (.error (e, made)) =>
    show Except.error (CompileError.ofRender s.indent made e) = _ ↔ made.any (Extent.exceeds s.indent) = true
    rw [CompileError.ofRender]
    split <;> simp_all
  | .ok (.ok code) =>
    show deliver parser (.ofModule s.module) s.check (code.toText (spaces s.indent)) = _ ↔ _
    rw [decide_eq_true_iff, deliver_eq_tooLong_iff]

/-- Unless a text is too long, a compilation goes on with the text of the code, or fails as the rendering does. -/
theorem compile_of_attempt {rendered : Rendered Code} {made : List Extent}
    (attempted : attempt s.module source = .ok (rendered.mapError fun e => (e, made))) :
    compile parser s source =
      if isTooLong s source then .error .tooLong
      else (rendered >>= fun code => pure (code.toText (spaces s.indent))).mapError .render >>=
        deliver parser (.ofModule s.module) s.check := by
  split
  · rename_i long
    exact (compile_eq_tooLong_iff accepted).mpr long
  · rename_i short
    rw [isTooLong, attempted] at short
    rw [compile_eq parser s source accepted, attempted, Outcome.ok_bind]
    cases rendered with
    | error e => exact congrArg Except.error (if_neg short)
    | ok code => rfl

/-- **The compilation of an expression** is its rendering, which is then delivered, unless a text is too long. -/
theorem compile_expr_eq_render {j : Json} {e : Expr} (read : readJson source = .ok j)
    (decoded : Decode.expr (.value j) = .ok e) (single : s.module = false) :
    compile parser s source =
      if isTooLong s source then .error .tooLong
      else (e.render {} (spaces s.indent)).mapError .render >>= deliver parser .expression s.check := by
  have attempted : attempt s.module source = .ok ((e.code {}).mapError fun error => (error, e.unfinished {})) := by
    rw [attempt, read, Outcome.ok_bind, decoded, single]
    rfl
  have compiled : compile parser s source = _ := compile_of_attempt accepted attempted
  rwa [single] at compiled

/-- **The compilation of a module** is its rendering without a header, which is then delivered, unless a text is too
long. -/
theorem compile_module_eq_render {j : Json} {m : Module} (read : readJson source = .ok j)
    (decoded : Decode.module (.value j) = .ok m) (whole : s.module = true) :
    compile parser s source =
      if isTooLong s source then .error .tooLong
      else (m.render { indentation := spaces s.indent }).mapError .render >>= deliver parser .module s.check := by
  have attempted : attempt s.module source = .ok ((m.code {}).mapError fun e => (e, m.unfinished {})) := by
    rw [attempt, read, Outcome.ok_bind, decoded, whole]
    rfl
  have compiled : compile parser s source = _ := compile_of_attempt accepted attempted
  rwa [whole] at compiled

end Settings

/-! ## Checking -/

/-- The diagnostics of category error that a parser has on the text of an input. -/
def Check.errors (parser : SyntaxParser) (mode : CheckMode) (body : Text) : List Diagnostic :=
  (parser (Check.wrapped mode body)).filter fun d => d.category = .error

/-- The report on syntax errors: it counts them and has a note for each of them, in order. -/
def Report.ofSyntaxErrors (mode : CheckMode) (body : Text) (errors : List Diagnostic) : Report where
  message := "Rendered " ++ mode.name ++ " is not valid syntax (" ++ Text.ofNat errors.length ++
    (if errors.length = 1 then " error)" else " errors)")
  stage := .check
  path := none
  notes := errors.map fun d => (Check.issue mode (Check.wrapped mode body) d).note

theorem assertValid_of_no_errors {parser : SyntaxParser} {mode : CheckMode} {body : Text}
    (h : Check.errors parser mode body = []) : assertValid parser mode body = .ok () := by
  have none : Check.issues parser mode body = [] := List.map_eq_nil_iff.mpr h
  rw [assertValid, none]

theorem assertValid_of_errors {parser : SyntaxParser} {mode : CheckMode} {body : Text}
    (h : Check.errors parser mode body ≠ []) : ∃ e, assertValid parser mode body = .error e ∧
      e.failure rootName = .report (.ofSyntaxErrors mode body (Check.errors parser mode body)) := by
  have issues : Check.issues parser mode body =
    (Check.errors parser mode body).map (Check.issue mode (Check.wrapped mode body)) := rfl
  rw [assertValid, issues]
  split
  · rename_i none
    exact absurd (List.map_eq_nil_iff.mp none) h
  · refine ⟨_, rfl, ?_⟩
    rw [CompileError.failure, List.length_map, List.map_map]
    rfl

/-! ## All settings -/

section Filter

variable {parser : SyntaxParser} {module : Bool} {width : Nat} {source : Text} (accepted : width ≤ maxTextLength)

include accepted

/-- If there is no rendering, then the check changes nothing. -/
theorem compile_check_of_error {e : CompileError} (failed : compile parser ⟨module, width, false⟩ source = .error e) :
    (e.failure rootName).stage? ≠ some .check ∧ compile parser ⟨module, width, true⟩ source = .error e := by
  rw [compile_eq parser ⟨module, width, false⟩ source accepted] at failed
  rw [compile_eq parser ⟨module, width, true⟩ source accepted]
  match attempted : attempt module source with
  | .error e' =>
    rw [attempted] at failed
    obtain rfl := Except.error.inj failed
    exact ⟨by simp [stage_of_attempt attempted], rfl⟩
  | .ok a =>
    rw [attempted, Outcome.ok_bind] at failed
    refine ⟨?_, ?_⟩
    · rcases settle_eq_error failed with rfl | ⟨e', made, -, -, rfl⟩ | ⟨check, -⟩
      · simp [CompileError.failure, Failure.stage?]
      · simp [CompileError.failure, Failure.stage?]
      · cases check
    · rw [Outcome.ok_bind]
      match a with
      | .error (e', made) => exact failed
      | .ok code =>
        rw [settle, deliver_unchecked] at failed
        rw [settle, deliver_checked]
        split at failed
        · obtain rfl := Except.error.inj failed
          rw [if_pos (Nat.lt_of_lt_of_le ‹_› (length_delivered_le _ _))]
        · cases failed

/-- If there is a rendering, then the check only asks the parser. -/
theorem compile_check_of_ok {text : Text} (compiled : compile parser ⟨module, width, false⟩ source = .ok text) :
    ∃ body, text = body ++ ending (.ofModule module) ∧ compile parser ⟨module, width, true⟩ source =
      if maxTextLength < (Check.wrapped (.ofModule module) body).length then .error .tooLong
      else (assertValid parser (.ofModule module) body).map fun _ => text := by
  rw [compile_eq parser ⟨module, width, false⟩ source accepted] at compiled
  rw [compile_eq parser ⟨module, width, true⟩ source accepted]
  obtain ⟨a, attempted, settled⟩ := Outcome.bind_eq_ok_iff.mp compiled
  match a with
  | .error (e, made) => cases settled
  | .ok code =>
    rw [settle, deliver_unchecked] at settled
    split at settled
    · cases settled
    · obtain rfl := Except.ok.inj settled
      refine ⟨_, rfl, ?_⟩
      rw [attempted, Outcome.ok_bind, settle, deliver_checked]

end Filter

/-- A closure, and then a pattern that binds a variable in one alternative only. -/
def closureThenBinding : Text :=
  "\x7b\"kind\":\"list\",\"elements\":[" ++
  "\x7b\"kind\":\"if\",\"condition\":\x7b\"kind\":\"variable\",\"name\":\"c\"\x7d," ++
  "\"then\":\x7b\"kind\":\"int\",\"value\":1\x7d,\"else\":\x7b\"kind\":\"int\",\"value\":2\x7d\x7d," ++
  "\x7b\"kind\":\"case\",\"scrutinee\":\x7b\"kind\":\"variable\",\"name\":\"q\"\x7d," ++
  "\"arms\":[\x7b\"pattern\":\x7b\"kind\":\"or\",\"alternatives\":[" ++
  "\x7b\"kind\":\"variable\",\"name\":\"b\"\x7d,\x7b\"kind\":\"wildcard\"\x7d]\x7d," ++
  "\"body\":\x7b\"kind\":\"int\",\"value\":1\x7d\x7d]\x7d]\x7d"

/-- The closure is made before the pattern is found. It is short enough for two spaces per level, and too long for many
spaces. -/
theorem attempt_closureThenBinding : ∃ e made, attempt false closureThenBinding = .ok (.error (e, made)) ∧
    made.any (Extent.exceeds 2) = false ∧ made.any (Extent.exceeds 300000000) = true := by
  have lengths : (match attempt false closureThenBinding with
      | .ok (.error (_, made)) => !made.any (Extent.exceeds 2) && made.any (Extent.exceeds 300000000)
      | _ => false) = true := by decide +kernel
  split at lengths
  · rename_i e made attempted
    rw [Bool.and_eq_true, Bool.not_eq_true'] at lengths
    exact ⟨e, made, attempted, lengths⟩
  · cases lengths

theorem compile_closureThenBinding : ∃ e, ∀ parser : SyntaxParser,
    compile parser ⟨false, 2, false⟩ closureThenBinding = .error (.render e) ∧
      compile parser ⟨false, 300000000, false⟩ closureThenBinding = .error .tooLong := by
  obtain ⟨e, made, attempted, short, long⟩ := attempt_closureThenBinding
  refine ⟨e, fun parser => ⟨?_, ?_⟩⟩
  · rw [compile_eq parser ⟨false, 2, false⟩ closureThenBinding (by decide), attempted, Outcome.ok_bind, settle,
      CompileError.ofRender, if_neg (by simp [short])]
  · rw [compile_eq parser ⟨false, 300000000, false⟩ closureThenBinding (by decide), attempted, Outcome.ok_bind,
      settle, CompileError.ofRender, if_pos long]

/-- **A wide indentation hides a render error**: with two spaces per level the pattern is reported, and with many the
closure before it is already too long. -/
theorem wide_indentation_hides_render_error : 300000000 ≤ maxTextLength ∧
    ∃ e, compile (fun _ => []) ⟨false, 2, false⟩ closureThenBinding = .error e ∧
      (e.failure rootName).stage? = some .render ∧
      compile (fun _ => []) ⟨false, 300000000, false⟩ closureThenBinding = .error .tooLong := by
  obtain ⟨e, outcomes⟩ := compile_closureThenBinding
  obtain ⟨reported, hidden⟩ := outcomes fun _ => []
  exact ⟨by decide, .render e, reported, rfl, hidden⟩

/-- **The check is a filter on renderings.** For every width that can be indented by at all, the check leaves an error
as it is, and none of those errors is one of the check. Where there is a rendering, the check gives the same text, or
an error of the check with a note for each error that the parser has on the wrapped rendering; it does the latter
exactly if there is such an error. A decode error is the same for all widths, parsers and with or without the check.
So is a render error.

All this is as far as texts are not too long: the check fails without asking the parser if the wrapped rendering is too
long, and a render error is hidden if a text that is made before it is too long, which is never so for a smaller width.
A compilation fails like this only if a text that is made on the way is too long. -/
theorem check_filters_renderings (module : Bool) (source : Text) :
    (∀ (parser : SyntaxParser) (width : Nat), width ≤ maxTextLength →
      (∀ e, compile parser ⟨module, width, false⟩ source = .error e →
        (e.failure rootName).stage? ≠ some .check ∧ compile parser ⟨module, width, true⟩ source = .error e) ∧
      ∀ text, compile parser ⟨module, width, false⟩ source = .ok text →
        ∃ body, text = body ++ ending (.ofModule module) ∧
          (maxTextLength < (Check.wrapped (.ofModule module) body).length →
            compile parser ⟨module, width, true⟩ source = .error .tooLong) ∧
          ((Check.wrapped (.ofModule module) body).length ≤ maxTextLength →
            (Check.errors parser (.ofModule module) body = [] →
              compile parser ⟨module, width, true⟩ source = .ok text) ∧
            (Check.errors parser (.ofModule module) body ≠ [] →
              ∃ e, compile parser ⟨module, width, true⟩ source = .error e ∧
                e.failure rootName = .report (.ofSyntaxErrors (.ofModule module) body
                  (Check.errors parser (.ofModule module) body))))) ∧
    ∀ (parser : SyntaxParser) (width : Nat) (check : Bool), width ≤ maxTextLength →
      (compile parser ⟨module, width, check⟩ source = .error .tooLong ↔
        isTooLong ⟨module, width, check⟩ source = true) ∧
      ∀ e, compile parser ⟨module, width, check⟩ source = .error e →
        ((e.failure rootName).stage? = some .decode → ∀ (parser' : SyntaxParser) (width' : Nat) (check' : Bool),
          width' ≤ maxTextLength → compile parser' ⟨module, width', check'⟩ source = .error e) ∧
        ((e.failure rootName).stage? = some .render → ∀ (parser' : SyntaxParser) (width' : Nat) (check' : Bool),
          width' ≤ maxTextLength → compile parser' ⟨module, width', check'⟩ source =
            (if isTooLong ⟨module, width', check'⟩ source then .error .tooLong else .error e) ∧
          (width' ≤ width → compile parser' ⟨module, width', check'⟩ source = .error e)) := by
  refine ⟨fun parser width accepted => ⟨fun e => compile_check_of_error accepted, fun text compiled => ?filter⟩,
    fun parser width check accepted => ⟨compile_eq_tooLong_iff accepted, fun e failed =>
      ⟨fun stage parser' width' check' accepted' => ?decode, fun stage parser' width' check' accepted' => ?render⟩⟩⟩
  case filter =>
    obtain ⟨body, made, checked⟩ := compile_check_of_ok accepted compiled
    refine ⟨body, made, fun long => by rw [checked, if_pos long], fun fits => ?_⟩
    rw [if_neg (Nat.not_lt.mpr fits)] at checked
    refine ⟨fun none => ?_, fun some => ?_⟩
    · rw [checked, assertValid_of_no_errors none]
      rfl
    · obtain ⟨e, invalid, report⟩ := assertValid_of_errors some
      exact ⟨e, by rw [checked, invalid]; rfl, report⟩
  case decode =>
    have attempted := attempt_of_decode_error accepted failed stage
    rw [compile_eq parser' ⟨module, width', check'⟩ source accepted', attempted]
    rfl
  case render =>
    have settled := compile_of_render_error accepted failed stage parser' ⟨module, width', check'⟩ rfl accepted'
    refine ⟨settled, fun narrower => ?_⟩
    have short := isTooLong_of_render_error accepted failed stage ⟨module, width', check'⟩ rfl narrower
    rw [settled, if_neg short]

/-- A parser that warns of something and finds one error, where an expression starts. -/
def strictParser : SyntaxParser := fun _ =>
  [⟨.node "odd" [], .warning, some 25⟩, ⟨.node "bad" [], .error, some 25⟩]

/-- The variable `x`. -/
def variableSource : Text := "\x7b\"kind\":\"variable\",\"name\":\"x\"\x7d"

theorem check_filters_variable :
    compile strictParser ⟨false, 2, false⟩ variableSource = .ok "x\n" ∧
    (∃ e, compile strictParser ⟨false, 2, true⟩ variableSource = .error e ∧ e.failure rootName =
      .report { message := "Rendered expression is not valid syntax (1 error)", stage := .check,
                notes := ["1:1 bad"] }) ∧
    (∃ e, compile strictParser ⟨false, 2, false⟩ closureThenBinding = .error e ∧
      (e.failure rootName).stage? = some .render ∧
      compile strictParser ⟨false, 0, true⟩ closureThenBinding = .error e) ∧
    ∃ e, compile strictParser ⟨false, 2, false⟩ "[" = .error e ∧ (e.failure rootName).stage? = some .decode ∧
      compile strictParser ⟨false, 300000000, true⟩ "[" = .error e := by
  have rendered : (compile strictParser ⟨false, 2, false⟩ variableSource).toOption = some ("x\n" : Text) := by
    decide +kernel
  have compiled : compile strictParser ⟨false, 2, false⟩ variableSource = .ok "x\n" := by
    revert rendered
    cases compile strictParser ⟨false, 2, false⟩ variableSource <;> simp [Except.toOption]
  refine ⟨compiled, ?_, ?_, ?_⟩
  · obtain ⟨filter, -⟩ := check_filters_renderings false variableSource
    obtain ⟨body, made, -, checked⟩ := (filter strictParser 2 (by decide)).2 _ compiled
    obtain rfl : ("x" : Text) = body := List.append_cancel_right made
    obtain ⟨e, failed, report⟩ := (checked (by decide)).2 (by decide +kernel)
    exact ⟨e, failed, report.trans (congrArg Failure.report (by decide +kernel))⟩
  · obtain ⟨e, outcomes⟩ := compile_closureThenBinding
    have failed := (outcomes strictParser).1
    obtain ⟨-, same⟩ := check_filters_renderings false closureThenBinding
    have narrower := ((same strictParser 2 false (by decide)).2 _ failed).2 rfl strictParser 0 true (by decide)
    exact ⟨.render e, failed, rfl, narrower.2 (by decide)⟩
  · have unread : (Json.parse? "[").isNone = true := by decide +kernel
    have failed : compile strictParser ⟨false, 2, false⟩ "[" = .error .notJson := by
      rw [compile, rendering, readJson, Option.isNone_iff_eq_none.mp unread]
      rfl
    obtain ⟨-, same⟩ := check_filters_renderings false "["
    exact ⟨_, failed, rfl, ((same strictParser 2 false (by decide)).2 _ failed).1 rfl strictParser _ true (by decide)⟩

end ExprScript
