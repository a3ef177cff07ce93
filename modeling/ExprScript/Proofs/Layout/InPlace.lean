import ExprScript.Proofs.Layout.Document

/-!
# Building apart and building in place

A piece of text can be built by a builder of its own and then be written into another one, or it can be built in the
other one right away. `building_apart_is_building_in_place` says that this makes no difference, as long as the level is
changed by blocks only (`Op.keepsLevel`).

- `Builder.Mirrors b f g` relates the two ways: `g` has done in `b` what `f` has done on its own. Writing, ending a line
  and entering and leaving a block keep it (`Mirrors.write` and so on), hence every instruction does (`Mirrors.step`)
  and every sequence of them (`Mirrors.run`);
- what it rests on is that indenting an indented text is indenting it by both depths at once
  (`Layout.indented_indented`);
- at the outermost level, texts are added as they are (`Builder.run_outermost`).
-/

namespace ExprScript

open Layout

namespace Layout

section Indented

variable {indentation : Text}

/-- An indented text is a document on lines of one depth. -/
theorem indented_eq_text (h : newline ∉ indentation) (depth : Nat) (atStart : Bool) (s : Text) :
    indented (pad indentation depth) atStart s = ((Document.ofText s).deeper depth).text indentation atStart := by
  rw [← Document.indented_text h, Document.text_ofText]

/-- Indenting an indented text is indenting it by both depths at once. -/
theorem indented_indented (h : newline ∉ indentation) (m n : Nat) (atStart : Bool) (s : Text) :
    indented (pad indentation m) atStart (indented (pad indentation n) atStart s) =
      indented (pad indentation (m + n)) atStart s := by
  rw [indented_eq_text h n, Document.indented_text h, Document.deeper_deeper, indented_eq_text h]

/-- Indentation does not change where lines start. -/
theorem startsLineAfter_indented (h : newline ∉ indentation) (depth : Nat) (atStart atStart' : Bool) (s : Text) :
    startsLineAfter atStart (indented (pad indentation depth) atStart' s) = startsLineAfter atStart s := by
  rw [indented_eq_text h, Document.startsLineAfter_text, Document.units_deeper, Document.units_ofText]

end Indented

/-- At the outermost level nothing is put before the lines. -/
theorem indented_nil (atStart : Bool) (s : Text) : indented [] atStart s = s := by
  induction s generalizing atStart with
  | nil => rfl
  | cons c rest ih => by_cases hc : c = newline <;> simp [indented, hc, ih]

/-- After something was written, it does not matter whether a line started before it. -/
theorem startsLineAfter_eq {s : Text} (h : s ≠ []) (atStart atStart' : Bool) :
    startsLineAfter atStart s = startsLineAfter atStart' s := by
  obtain ⟨c, rest, rfl⟩ := List.exists_cons_of_ne_nil h
  rfl

end Layout

namespace Builder

/-! ## Writing -/

theorem write_eq (b : Builder) (s : Text) : b.write s =
    { b with
      text := b.text ++ indented (pad b.indentation b.level) b.atLineStart s
      atLineStart := startsLineAfter b.atLineStart s } := rfl

/-- Writing one text and then another is writing both at once. -/
theorem write_write (b : Builder) (x y : Text) : (b.write x).write y = b.write (x ++ y) := by
  simp [write, indented_append, startsLineAfter_append]

/-- At the outermost level a text is added as it is. -/
theorem text_write {b : Builder} (h : b.level = 0) (x : Text) : (b.write x).text = b.text ++ x := by
  simp [write, h, indented_nil]

/-- The text of an instruction that has nothing to do with levels. -/
def Op.text? : Op → Option Text
  | .write s => some s
  | .newline => some [ExprScript.newline]
  | .writeLine s => some (s ++ [ExprScript.newline])
  | .indent | .dedent | .block _ _ _ => none

/-- At the outermost level, such an instruction adds its text as it is. -/
theorem step_outermost {op : Op} {t : Text} (plain : op.text? = some t) {b : Builder} (outermost : b.level = 0) :
    (b.step op).level = 0 ∧ (b.step op).text = b.text ++ t := by
  cases op with
  | write s =>
    obtain rfl := Option.some.inj plain
    rw [step]
    exact ⟨outermost, text_write outermost s⟩
  | newline =>
    obtain rfl := Option.some.inj plain
    rw [step]
    exact ⟨outermost, rfl⟩
  | writeLine s =>
    obtain rfl := Option.some.inj plain
    rw [step, writeLine, newLine, text_write outermost, List.append_assoc]
    exact ⟨outermost, rfl⟩
  | indent => exact absurd plain (by simp [Op.text?])
  | dedent => exact absurd plain (by simp [Op.text?])
  | block opening body closing => exact absurd plain (by simp [Op.text?])

/-- At the outermost level, such instructions add their texts as they are. -/
theorem run_outermost {ops : List Op} (plain : ∀ op ∈ ops, op.text?.isSome = true) {b : Builder}
    (outermost : b.level = 0) :
    (b.run ops).level = 0 ∧ (b.run ops).text = b.text ++ ops.flatMap fun op => op.text?.getD [] := by
  induction ops generalizing b with
  | nil =>
    rw [run]
    exact ⟨outermost, by simp⟩
  | cons op rest ih =>
    obtain ⟨first, others⟩ := List.forall_mem_cons.mp plain
    obtain ⟨t, own⟩ := Option.isSome_iff_exists.mp first
    obtain ⟨level, text⟩ := step_outermost own outermost
    obtain ⟨level', text'⟩ := ih others level
    rw [run]
    exact ⟨level', by simp [text', text, own]⟩

/-! ## Instructions that keep the level -/

mutual

/-- Whether an instruction goes deeper only in blocks, which come back to where they started. -/
def Op.keepsLevel : Op → Bool
  | .write _ | .newline | .writeLine _ => true
  | .indent | .dedent => false
  | .block _ body _ => Op.allKeepLevel body

/-- Whether all instructions keep the level. -/
def Op.allKeepLevel : List Op → Bool
  | [] => true
  | op :: rest => op.keepsLevel && Op.allKeepLevel rest

end

mutual

theorem level_step : ∀ (op : Op), op.keepsLevel = true → ∀ b : Builder, (b.step op).level = b.level
  | .write _, _, _ | .newline, _, _ | .writeLine _, _, _ => by rw [step]; rfl
  | .indent, h, _ | .dedent, h, _ => absurd h (by simp [Op.keepsLevel])
  | .block opening body closing, h, b => by
    rw [Op.keepsLevel] at h
    rw [step, leave, write, dedent, level_run body h]
    rfl

theorem level_run : ∀ (ops : List Op), Op.allKeepLevel ops = true → ∀ b : Builder, (b.run ops).level = b.level
  | [], _, _ => by rw [run]
  | op :: rest, h, b => by
    rw [Op.allKeepLevel, Bool.and_eq_true] at h
    rw [run, level_run rest h.2, level_step op h.1]

end

/-! ## Two builders -/

/-- `g` has done in `b` what `f` has done on its own: it has the text of `f` with the indentation of `b` put before its
lines, and it is as deep as `b` and `f` together. Before `f` has written something, it is not in a block. -/
structure Mirrors (b f g : Builder) : Prop where
  indentation : f.indentation = b.indentation
  built : g = { b.write f.text with level := b.level + f.level }
  lineStart : f.atLineStart = startsLineAfter true f.text
  outermost : f.text = [] → f.level = 0

namespace Mirrors

variable {b f g : Builder}

/-- To begin with, nothing has been done. -/
theorem start (b : Builder) : Mirrors b (empty b.indentation) b where
  indentation := rfl
  built := by simp [empty, Builder.write, indented, startsLineAfter]
  lineStart := rfl
  outermost _ := rfl

/-- What `f` adds to its text is indented in `g` by both levels. -/
theorem indented_eq (oneLine : newline ∉ b.indentation) (h : Mirrors b f g) (s : Text) :
    indented (pad b.indentation b.level) (startsLineAfter b.atLineStart f.text)
        (indented (pad f.indentation f.level) f.atLineStart s) =
      indented (pad b.indentation (b.level + f.level)) (startsLineAfter b.atLineStart f.text) s := by
  rw [h.indentation]
  by_cases nothing : f.text = []
  · rw [h.outermost nothing, pad_zero, indented_nil, Nat.add_zero]
  · rw [h.lineStart, startsLineAfter_eq nothing b.atLineStart true, indented_indented oneLine]

/-- Writing the same text. -/
theorem write (oneLine : newline ∉ b.indentation) (h : Mirrors b f g) (s : Text) :
    Mirrors b (f.write s) (g.write s) where
  indentation := h.indentation
  built := by
    rw [h.built, write_eq, write_eq, write_eq, write_eq]
    simp only [indented_append, startsLineAfter_append, h.indented_eq oneLine, List.append_assoc]
    rw [h.indentation, startsLineAfter_indented oneLine]
  lineStart := by
    rw [write_eq]
    simp only [startsLineAfter_append, ← h.lineStart]
    rw [h.indentation, startsLineAfter_indented oneLine]
  outermost nothing := h.outermost (List.append_eq_nil_iff.mp nothing).1

/-- Ending the line in both. -/
theorem newLine (h : Mirrors b f g) : Mirrors b f.newLine g.newLine where
  indentation := h.indentation
  built := by
    rw [h.built]
    simp [Builder.newLine, write_eq, indented_append, startsLineAfter_append, indented, startsLineAfter]
  lineStart := by simp [Builder.newLine, startsLineAfter_append, startsLineAfter]
  outermost nothing := absurd nothing (by simp [Builder.newLine])

/-- Starting the same block. -/
theorem enter (oneLine : newline ∉ b.indentation) (h : Mirrors b f g) (opening : Text) :
    Mirrors b (f.enter opening) (g.enter opening) := by
  have line := (h.write oneLine opening).newLine
  refine ⟨line.indentation, ?_, line.lineStart, fun nothing => absurd nothing (by simp [Builder.enter, writeLine,
    Builder.newLine, indent])⟩
  rw [Builder.enter, Builder.enter, writeLine, writeLine, line.built]
  rfl

/-- Ending a block in both. -/
theorem leave (oneLine : newline ∉ b.indentation) (h : Mirrors b f g) (inside : 0 < f.level) (closing : Text) :
    Mirrors b (f.leave closing) (g.leave closing) := by
  have back : Mirrors b f.dedent g.dedent := by
    refine ⟨h.indentation, ?_, h.lineStart, fun nothing => absurd (h.outermost nothing) (by omega)⟩
    rw [h.built]
    simp only [dedent, Builder.mk.injEq, true_and, and_true]
    omega
  exact back.write oneLine closing

end Mirrors

mutual

/-- **One instruction** does the same in both. -/
theorem Mirrors.step {b : Builder} (oneLine : newline ∉ b.indentation) : ∀ (op : Op), op.keepsLevel = true →
    ∀ {f g : Builder}, Mirrors b f g → Mirrors b (f.step op) (g.step op)
  | .write s, _, f, g, h => by
    rw [Builder.step, Builder.step]
    exact h.write oneLine s
  | .newline, _, f, g, h => by
    rw [Builder.step, Builder.step]
    exact h.newLine
  | .writeLine s, _, f, g, h => by
    rw [Builder.step, Builder.step]
    exact (h.write oneLine s).newLine
  | .indent, keeps, _, _, _ | .dedent, keeps, _, _, _ => absurd keeps (by simp [Op.keepsLevel])
  | .block opening body closing, keeps, f, g, h => by
    rw [Op.keepsLevel] at keeps
    have inside : 0 < ((f.enter opening).run body).level := by
      rw [level_run body keeps]
      exact Nat.succ_pos _
    rw [Builder.step, Builder.step]
    exact (Mirrors.run oneLine body keeps (h.enter oneLine opening)).leave oneLine inside closing

/-- **Every sequence of instructions** does the same in both. -/
theorem Mirrors.run {b : Builder} (oneLine : newline ∉ b.indentation) : ∀ (ops : List Op), Op.allKeepLevel ops = true →
    ∀ {f g : Builder}, Mirrors b f g → Mirrors b (f.run ops) (g.run ops)
  | [], _, f, g, h => by
    rw [Builder.run, Builder.run]
    exact h
  | op :: rest, keeps, f, g, h => by
    rw [Op.allKeepLevel, Bool.and_eq_true] at keeps
    rw [Builder.run, Builder.run]
    exact Mirrors.run oneLine rest keeps.2 (Mirrors.step oneLine op keeps.1 h)

end

/-- **Building apart is building in place.** Instructions that change the level by blocks only are carried out by a new
builder, and its text is written into `b`: this leaves `b` as if it had carried them out itself, with the same text, at
the same level, and at the start of a line or not. This holds of every `b`, however deep and wherever on a line it is.
In particular two texts can be written at once, and at the outermost level a text is added as it is. -/
theorem building_apart_is_building_in_place :
    (∀ (b : Builder) (ops : List Op), newline ∉ b.indentation → Op.allKeepLevel ops = true →
      b.write ((empty b.indentation).run ops).text = b.run ops) ∧
    (∀ (b : Builder) (x y : Text), (b.write x).write y = b.write (x ++ y)) ∧
    ∀ (b : Builder) (x : Text), b.level = 0 → (b.write x).text = b.text ++ x := by
  refine ⟨fun b ops oneLine keeps => ?_, write_write, fun b x h => text_write h x⟩
  have both := Mirrors.run oneLine ops keeps (.start b)
  rw [both.built, level_run ops keeps]
  rfl

/-- A builder in a block and inside a line. -/
def insideLine : Builder := ((empty "\t").enter "a").write "b"

/-- Lines, empty lines and a block in a block. -/
def nestedBlocks : List Op :=
  [.write "c\n\nd", .block " \x7b" [.newline, .block "\x7b" [.writeLine "e"] "\x7d", .writeLine []] "\x7d\n"]

theorem building_apart_insideLine_nestedBlocks :
    newline ∉ insideLine.indentation ∧ Op.allKeepLevel nestedBlocks = true ∧
    insideLine.write ((empty insideLine.indentation).run nestedBlocks).text = insideLine.run nestedBlocks ∧
    insideLine.run nestedBlocks = ⟨"\t", "a\n\tbc\n\n\td \x7b\n\n\t\t\x7b\n\t\t\te\n\t\t\x7d\n\t\x7d\n", 1, true⟩ ∧
    (insideLine.write "x\n").write "y" = insideLine.write "x\ny" ∧
    ((empty "\t").write "x\ny").text = "x\ny" := by
  have oneLine : newline ∉ insideLine.indentation := by decide
  have keeps : Op.allKeepLevel nestedBlocks = true := by decide
  obtain ⟨inPlace, writes, outermost⟩ := building_apart_is_building_in_place
  exact ⟨oneLine, keeps, inPlace _ _ oneLine keeps, rfl, writes _ _ _, outermost _ _ rfl⟩

end Builder

end ExprScript
