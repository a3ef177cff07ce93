import ExprScript.Check.Position
import ExprScript.Proofs.Outcome
import ExprScript.Proofs.Render.Declarations
import ExprScript.Render.Module
import Mathlib.Data.List.Basic

/-!
# The header of a module

A header is put above a module as comment lines, one for each piece between line feeds. A parser of the target language
ends lines at other units too, and what follows such a unit is no comment unless it looks like one.

- `Target.lines` are the lines of a text as a parser counts them (`Target.length_lines`), and `Target.IsInert` says that
  a line has no code on it;
- `Target.lines_commentLine`: the lines of one comment line are a comment and then those lines of the piece that do not
  come first. From it, `Target.inert_comments_iff` follows piece by piece;
- `header_is_inert_iff`: when a header adds no code to a module.
-/

namespace ExprScript

namespace Target

/-! ## Lines of the target language -/

/-- A unit in front of the first line. -/
def push (u : CodeUnit) : List Text → List Text
  | [] => [[u]]
  | line :: others => (u :: line) :: others

/-- The lines of a text without what ends them: one more than there are line ends. A carriage return before a line feed
is part of what ends the line. -/
def lines : Text → List Text
  | [] => [[]]
  | u :: rest =>
    if Position.endsLine u rest then [] :: lines rest
    else if u = 13 then lines rest
    else push u (lines rest)

theorem push_append {ls : List Text} (nonempty : ls ≠ []) (u : CodeUnit) (more : List Text) :
    push u (ls ++ more) = push u ls ++ more := by
  obtain ⟨line, others, rfl⟩ := List.exists_cons_of_ne_nil nonempty
  rfl

theorem push_ne_nil (u : CodeUnit) (ls : List Text) : push u ls ≠ [] := by
  cases ls <;> exact List.cons_ne_nil _ _

theorem lines_ne_nil (t : Text) : lines t ≠ [] := by
  fun_induction lines t with
  | case1 => exact List.cons_ne_nil _ _
  | case2 => exact List.cons_ne_nil _ _
  | case3 _ _ ih => exact ih
  | case4 => exact push_ne_nil _ _

/-- The lines are those of which a parser knows the starts. -/
theorem length_lines (t : Text) : (lines t).length = (Position.lineStarts t).length := by
  have from' (offset : Nat) : (lines t).length = (Position.lineStartsFrom offset t).length + 1 := by
    fun_induction lines t generalizing offset with
    | case1 => rfl
    | case2 u rest ends ih => simp [Position.lineStartsFrom, ends, ih (offset + 1)]
    | case3 rest ends ih => simp [Position.lineStartsFrom, ends, ih (offset + 1)]
    | case4 u rest ends _ ih =>
      obtain ⟨line, others, eq⟩ := List.exists_cons_of_ne_nil (lines_ne_nil rest)
      rw [eq] at ih
      simp [Position.lineStartsFrom, ends, eq, push, ← ih (offset + 1)]
  exact from' 0

/-- **A line feed closes the lines before it:** they are the lines of the text before it, up to an empty one that a
carriage return right before the line feed would start on its own. -/
theorem lines_append_newline (x : Text) : ∃ closed, closed ≠ [] ∧
    (∀ t, lines (x ++ newline :: t) = closed ++ lines t) ∧ (lines x = closed ∨ lines x = closed ++ [[]]) := by
  have feed (t : Text) : lines (newline :: t) = [] :: lines t := by rw [lines, Position.endsLine]; rfl
  induction x with
  | nil => exact ⟨[[]], List.cons_ne_nil _ _, feed, .inl rfl⟩
  | cons u rest ih =>
    obtain ⟨closed, nonempty, eq, own⟩ := ih
    by_cases last : u = 13 ∧ rest = []
    · obtain ⟨rfl, rfl⟩ := last
      refine ⟨[[]], List.cons_ne_nil _ _, fun t => ?_, .inr rfl⟩
      rw [List.cons_append, List.nil_append, lines, feed]
      rfl
    · -- the line feed is seen only by a carriage return right before it
      have same (t : Text) : Position.endsLine u (rest ++ newline :: t) = Position.endsLine u rest := by
        cases rest with
        | nil =>
          have other : (u == 13) = false := beq_eq_false_iff_ne.mpr fun h => last ⟨h, rfl⟩
          simp [Position.endsLine, other]
        | cons v rest => rfl
      simp only [List.cons_append, lines, same, eq]
      split
      · exact ⟨[] :: closed, List.cons_ne_nil _ _, fun t => rfl,
          own.imp (congrArg ([] :: ·)) (congrArg ([] :: ·))⟩
      · split
        · exact ⟨closed, nonempty, fun t => rfl, own⟩
        · refine ⟨push u closed, push_ne_nil u closed, fun t => push_append nonempty u _, ?_⟩
          refine own.imp (congrArg (push u)) fun eq => ?_
          rw [eq, push_append nonempty]

/-! ## Lines without code -/

/-- A line without code: it is empty, or a comment. -/
def IsInert (line : Text) : Prop := line = [] ∨ ("//" : Text) <+: line

instance (line : Text) : Decidable (IsInert line) := inferInstanceAs (Decidable (_ ∨ _))

/-- **One comment line:** a comment, and then the lines of the piece that do not come first. -/
theorem lines_commentLine (piece : Text) : ∃ first others, ("//" : Text) <+: first ∧
    (∀ t, lines (commentLine piece ++ t) = first :: others ++ lines t) ∧
    ((lines piece).tail = others ∨ (lines piece).tail = others ++ [[]]) := by
  cases piece with
  | nil => exact ⟨"//", [], List.prefix_rfl, fun t => rfl, .inl rfl⟩
  | cons c rest =>
    obtain ⟨closed, nonempty, eq, own⟩ := lines_append_newline (c :: rest)
    obtain ⟨first, others, rfl⟩ := List.exists_cons_of_ne_nil nonempty
    have slashes (x : Text) : lines (unit '/' :: unit '/' :: unit ' ' :: x) =
        push (unit '/') (push (unit '/') (push (unit ' ') (lines x))) := rfl
    have written (t : Text) : commentLine (c :: rest) ++ t =
        unit '/' :: unit '/' :: unit ' ' :: (c :: rest ++ newline :: t) := by
      show ("// " ++ (c :: rest) ++ "\n" ++ t : Text) = _
      simp only [List.append_assoc]
      rfl
    refine ⟨unit '/' :: unit '/' :: unit ' ' :: first, others, ⟨unit ' ' :: first, rfl⟩, fun t => ?_,
      own.imp (congrArg List.tail) (congrArg List.tail)⟩
    rw [written, slashes, eq]
    rfl

/-- **When comment lines have no code on them:** if none of the pieces has it after its first line. -/
theorem inert_comments_iff (pieces : List Text) (t : Text) :
    (∀ line ∈ lines (pieces.flatMap commentLine ++ t), IsInert line) ↔
      (∀ piece ∈ pieces, ∀ line ∈ (lines piece).tail, IsInert line) ∧ ∀ line ∈ lines t, IsInert line := by
  induction pieces with
  | nil => simp
  | cons piece rest ih =>
    obtain ⟨first, others, comment, eq, tail⟩ := lines_commentLine piece
    have inert : IsInert first := .inr comment
    have same : (∀ line ∈ (lines piece).tail, IsInert line) ↔ ∀ line ∈ others, IsInert line := by
      have empty : IsInert [] := .inl rfl
      rcases tail with tail | tail <;> rw [tail]
      rw [List.forall_mem_append, List.forall_mem_singleton, and_iff_left empty]
    rw [List.flatMap_cons, List.append_assoc, eq, List.forall_mem_append, List.forall_mem_cons, and_iff_right inert, ih,
      List.forall_mem_cons, same, and_assoc]

end Target

/-! ## Modules with a header -/

/-- **A header adds comment lines to a module, and nothing else exactly if none of its pieces has code after its first
line.** One builder writes the header and then the declarations. The text of a module with a header is the text of the
header and then that of the module without it, and the lines of the whole are those of the header and then those of the
module. The lines of the header are empty or comments exactly if, in every piece between line feeds, this holds of the
lines that other units start: carriage returns without a line feed, U+2028 and U+2029. -/
theorem header_is_inert_iff (o : Options) (m : Module) (header : Text) :
    m.render { o with header := some header } =
      (fun texts => ((Builder.empty o.indentation).run (Module.ops (some header) texts)).text) <$>
        m.decls.mapM (Decl.render o.toStyle o.indentation) ∧
    m.render { o with header := some header } = (headerText header ++ ·) <$> m.render { o with header := none } ∧
    (∀ text, Target.lines (headerText header ++ text) =
      (Target.lines (headerText header)).dropLast ++ Target.lines text) ∧
    ((∀ line ∈ Target.lines (headerText header), Target.IsInert line) ↔
      ∀ piece ∈ Text.splitOn newline header, ∀ line ∈ (Target.lines piece).tail, Target.IsInert line) := by
  have built (header : Option Text) := Module.render_eq_run { o with header } m
  refine ⟨built (some header), ?_, fun text => ?_, ?_⟩
  · have above (texts : List Text) : ((Builder.empty o.indentation).run (Module.ops (some header) texts)).text =
        headerText header ++ ((Builder.empty o.indentation).run (Module.ops none texts)).text := by
      rw [Module.text_run_ops, Module.text_run_ops]
      rfl
    rw [built (some header), built none, Functor.map_map]
    exact congrArg (· <$> _) (funext above)
  · obtain ⟨closed, -, eq, -⟩ := Target.lines_append_newline ((Text.splitOn newline header).flatMap commentLine)
    have whole : Target.lines (headerText header) = closed ++ [[]] := eq []
    rw [whole, List.dropLast_concat, headerText, List.append_assoc, List.singleton_append, eq]
  · have last : ∀ line ∈ Target.lines [newline], Target.IsInert line := by decide
    rw [headerText, Target.inert_comments_iff, and_iff_left last]

/-- A header that goes on after a carriage return. -/
def brokenHeader : Text := "one\rtwo()"

/-- **A carriage return ends a comment** of the header: what comes after it is a line of code. -/
theorem carriage_return_ends_comment :
    Module.render { header := some brokenHeader } ⟨[.const "x" none (.bool true) true]⟩ =
      .ok ("// one\rtwo()\n\nexport const x = true;\n" : Text) ∧
    (("two()" : Text) ∈ Target.lines (headerText brokenHeader)) ∧ ¬Target.IsInert "two()" := by
  refine ⟨rfl, by decide, by decide⟩

end ExprScript
