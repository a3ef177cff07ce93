import ExprScript.Compile
import ExprScript.Proofs.Layout.Code
import ExprScript.Proofs.Layout.Document
import ExprScript.Proofs.Text.Quoted

/-!
# Strings, keys and properties

The texts that are not taken over as they stand: the value of a string, the key of a field and the name of a property.
`quoted_text_denotes_source` says that each of them can be read off what is written for it.

- `Text.IsIdentifier` is the grammar of identifiers, and `Text.isIdentifier` decides it (`Text.isIdentifier_iff`);
- `Json.parse?_encode`: a quoted text is the JSON text of a string;
- `accessText` is what is written for a property after its target. It determines the property whatever the target is
  (`accessText_inj`), because a quote stands between quotes only after a backslash;
- `Text.StandsFast`: a text without line ends is left as it is by every builder, wherever it stands in what is written.
-/

namespace ExprScript

open Layout

/-! ## Identifiers -/

namespace Text

/-- The units that an identifier may start with. -/
def identifierStarts : Text := "abcdefghijklmnopqrstuvwxyzABCDEFGHIJKLMNOPQRSTUVWXYZ_$"

/-- The decimal digits. -/
def digits : Text := "0123456789"

/-- An identifier: a letter, `_` or `$`, and any number of these and digits after it. -/
def IsIdentifier (t : Text) : Prop :=
  ∃ c rest, t = c :: rest ∧ c ∈ identifierStarts ∧ ∀ u ∈ rest, u ∈ identifierStarts ∨ u ∈ digits

/-- A class of ASCII units is given by its table. -/
theorem mem_iff_of_ascii {p : CodeUnit → Bool} {units : Text} (ascii : ∀ u, p u = true → u.toNat < 128)
    (listed : units.all (fun u => u.toNat < 128) = true)
    (table : ∀ n : Fin 128, p n.val.toUInt16 = decide (n.val.toUInt16 ∈ units)) (u : CodeUnit) :
    p u = true ↔ u ∈ units := by
  by_cases bound : u.toNat < 128
  · have same : u.toNat.toUInt16 = u := UInt16.ofNat_toNat
    have entry := table ⟨u.toNat, bound⟩
    rw [same] at entry
    rw [entry, decide_eq_true_iff]
  · exact ⟨fun h => absurd (ascii u h) bound,
      fun h => absurd (of_decide_eq_true (List.all_eq_true.mp listed u h)) bound⟩

theorem isDigit_iff (u : CodeUnit) : u.isDigit = true ↔ u ∈ digits := by
  refine mem_iff_of_ascii (fun u h => ?_) (by decide +kernel) (by decide +kernel) u
  simp only [CodeUnit.isDigit, Bool.and_eq_true, decide_eq_true_eq, UInt16.le_iff_toNat_le] at h
  exact Nat.lt_of_le_of_lt h.2 (by decide)

theorem starts_iff (u : CodeUnit) : isIdentifier.starts u = true ↔ u ∈ identifierStarts := by
  refine mem_iff_of_ascii (fun u h => ?_) (by decide +kernel) (by decide +kernel) u
  simp only [isIdentifier.starts, CodeUnit.isLetter, Bool.or_eq_true, Bool.and_eq_true, decide_eq_true_eq, beq_iff_eq,
    UInt16.le_iff_toNat_le] at h
  rcases h with ((⟨-, h⟩ | ⟨-, h⟩) | rfl) | rfl
  · exact Nat.lt_of_le_of_lt h (by decide)
  · exact Nat.lt_of_le_of_lt h (by decide)
  · decide
  · decide

/-- **The check for identifiers** accepts exactly what the grammar does. -/
theorem isIdentifier_iff {t : Text} : t.isIdentifier = true ↔ t.IsIdentifier := by
  cases t with
  | nil => simp [isIdentifier, IsIdentifier]
  | cons c rest =>
    simp only [isIdentifier, Bool.and_eq_true, List.all_eq_true, Bool.or_eq_true, starts_iff, isDigit_iff]
    constructor
    · rintro ⟨first, others⟩
      exact ⟨c, rest, rfl, first, others⟩
    · rintro ⟨_, _, ⟨⟩, first, others⟩
      exact ⟨first, others⟩

/-- The units of an identifier are letters, digits, `_` and `$`. -/
theorem IsIdentifier.mem {t : Text} (h : t.IsIdentifier) {u : CodeUnit} (mem : u ∈ t) :
    u ∈ identifierStarts ++ digits := by
  obtain ⟨c, rest, rfl, first, others⟩ := h
  rw [List.mem_append]
  rcases List.mem_cons.mp mem with rfl | mem
  · exact .inl first
  · exact others u mem

theorem IsIdentifier.visible {t : Text} (h : t.IsIdentifier) : Quoted.IsVisible t := fun u mem => by
  have table : Quoted.IsVisible (identifierStarts ++ digits) := Quoted.visible_of_all (by decide +kernel)
  exact table u (h.mem mem)

/-- No identifier has a quote, a point or a bracket in it. -/
theorem IsIdentifier.notMem {t : Text} (h : t.IsIdentifier) {u : CodeUnit}
    (mark : u ∈ [unit '\"', unit '.', unit ']']) : u ∉ t := fun mem => by
  have table : [unit '\"', unit '.', unit ']'].all (fun u => u ∉ identifierStarts ++ digits) = true := by
    decide +kernel
  exact of_decide_eq_true (List.all_eq_true.mp table u mark) (h.mem mem)

theorem IsIdentifier.ne_nil {t : Text} (h : t.IsIdentifier) : t ≠ [] := by
  obtain ⟨c, rest, rfl, -⟩ := h
  exact List.cons_ne_nil c rest

end Text

/-! ## Literals -/

/-- **A quoted text is the JSON text of a string.** -/
theorem Json.parse?_encode (s : Text) : Json.parse? (Quoted.encode s) = some (.string s) := by
  have read : Quoted.read (Quoted.escape s ++ [unit '\"']) = some (s, []) := Quoted.read_escape s []
  have value (bound : Nat) : Json.readValue (bound + 1) (Quoted.encode s) = some (.string s, []) := by
    have first : skipBlanks (Quoted.encode s) = Quoted.encode s := List.dropWhile_cons_of_neg (by decide)
    rw [readValue, first, Quoted.encode, List.cons_append]
    simp only [if_true, read]
    rfl
  rw [parse?, value]
  rfl

/-- A text in quotes that reads back as `s`. -/
structure IsLiteral (s literal : Text) : Prop where
  quoted : ∃ inner, literal = unit '\"' :: inner ++ [unit '\"']
  reads : readJson literal = .ok (.string s)

theorem isLiteral_encode (s : Text) : IsLiteral s (Quoted.encode s) where
  quoted := ⟨Quoted.escape s, rfl⟩
  reads := by rw [readJson, Json.parse?_encode]

theorem encode_inj {s s' : Text} (h : Quoted.encode s' = Quoted.encode s) : s' = s := by
  have same := congrArg Json.parse? h
  rw [Json.parse?_encode, Json.parse?_encode] at same
  exact Json.string.inj (Option.some.inj same)

/-! ## Keys -/

theorem keyText_cases (s : Text) :
    s.IsIdentifier ∧ keyText s = s ∨ ¬s.IsIdentifier ∧ keyText s = Quoted.encode s := by
  rw [← Text.isIdentifier_iff, keyText]
  split
  · rename_i h
    exact .inl ⟨h, rfl⟩
  · rename_i h
    exact .inr ⟨h, rfl⟩

theorem encode_ne_of_isIdentifier {s s' : Text} (h : s.IsIdentifier) : Quoted.encode s' ≠ s := by
  intro eq
  have quote : unit '\"' ∈ s := eq ▸ List.mem_cons_self
  exact h.notMem (by simp) quote

theorem keyText_inj {s s' : Text} (h : keyText s' = keyText s) : s' = s := by
  rcases keyText_cases s with ⟨bare, eq⟩ | ⟨quoted, eq⟩ <;>
    rcases keyText_cases s' with ⟨bare', eq'⟩ | ⟨quoted', eq'⟩ <;> rw [eq, eq'] at h
  · exact h
  · exact absurd h (encode_ne_of_isIdentifier bare)
  · exact absurd h.symm (encode_ne_of_isIdentifier bare')
  · exact encode_inj h

/-! ## Properties -/

/-- What is written for a property after its target. -/
def accessText (name : Text) : Text :=
  if name.isIdentifier then "." ++ name else "[" ++ Quoted.encode name ++ "]"

theorem accessText_cases (s : Text) :
    s.IsIdentifier ∧ accessText s = "." ++ s ∨ ¬s.IsIdentifier ∧ accessText s = "[" ++ Quoted.encode s ++ "]" := by
  rw [← Text.isIdentifier_iff, accessText]
  split
  · rename_i h
    exact .inl ⟨h, rfl⟩
  · rename_i h
    exact .inr ⟨h, rfl⟩

theorem toText_propertyCode_eq (target : Code) (s indentation : Text) :
    (propertyCode target s).toText indentation = target.toText indentation ++ accessText s := by
  unfold propertyCode accessText
  split <;> simp

/-- Only an access that is quoted ends in a bracket. -/
theorem getLast?_accessText (s : Text) : (accessText s).getLast? = some (unit ']') ↔ ¬s.IsIdentifier := by
  rcases accessText_cases s with ⟨bare, eq⟩ | ⟨quoted, eq⟩
  · refine iff_of_false (fun last => ?_) (not_not.mpr bare)
    rw [eq, List.getLast?_append_of_ne_nil _ bare.ne_nil] at last
    exact bare.notMem (by simp) (List.mem_of_getLast? last)
  · refine iff_of_true ?_ quoted
    rw [eq, List.getLast?_append_of_ne_nil _ (by decide)]
    rfl

/-- An identifier after a point does not end in a point and an identifier. -/
theorem eq_nil_of_point {s s' more : Text} (bare : s'.IsIdentifier) (h : more ++ unit '.' :: s = unit '.' :: s') :
    more = [] := by
  cases more with
  | nil => rfl
  | cons c rest =>
    have inside : unit '.' ∈ s' := (List.cons.inj h).2 ▸ by simp
    exact absurd inside (bare.notMem (by simp))

/-- What is between quotes does not end in a bracket and what could be between quotes after it: the quote after that
bracket would need a backslash before it. -/
theorem eq_nil_of_bracket {s s' more : Text} (h : more ++ unit '[' :: unit '\"' :: Quoted.escape s =
    unit '[' :: unit '\"' :: Quoted.escape s') : more = [] := by
  match more with
  | [] => rfl
  | [c] => exact absurd (List.cons.inj (List.cons.inj h).2).1 (by decide)
  | c :: d :: rest =>
    have inside : rest ++ unit '[' :: unit '\"' :: Quoted.escape s = Quoted.escape s' :=
      (List.cons.inj (List.cons.inj h).2).2
    have chain := Quoted.isChain_escape s'
    rw [← inside, List.isChain_append_cons_cons] at chain
    exact absurd (chain.2.1 rfl) (by decide)

/-- No access is the end of another. -/
theorem eq_of_accessText_suffix {s s' : Text} (h : accessText s <:+ accessText s') : s = s' := by
  obtain ⟨more, eq⟩ := h
  have nonempty : accessText s ≠ [] := by
    rcases accessText_cases s with ⟨-, eq⟩ | ⟨-, eq⟩ <;> rw [eq] <;> exact List.cons_ne_nil _ _
  have alike : s.IsIdentifier ↔ s'.IsIdentifier := by
    rw [← not_iff_not, ← getLast?_accessText, ← getLast?_accessText, ← eq, List.getLast?_append_of_ne_nil _ nonempty]
  rcases accessText_cases s with ⟨bare, own⟩ | ⟨quoted, own⟩
  · have own' := ((accessText_cases s').resolve_right fun other => other.1 (alike.mp bare)).2
    rw [own, own'] at eq
    obtain rfl := eq_nil_of_point (alike.mp bare) eq
    exact (List.cons.inj eq).2
  · have own' := ((accessText_cases s').resolve_left fun other => quoted (alike.mpr other.1)).2
    rw [own, own'] at eq
    have closed (t : Text) : "[" ++ Quoted.encode t ++ "]" =
        unit '[' :: unit '\"' :: Quoted.escape t ++ [unit '\"', unit ']'] := by
      show unit '[' :: (unit '\"' :: Quoted.escape t ++ [unit '\"']) ++ [unit ']'] = _
      simp
    rw [closed, closed, ← List.append_assoc] at eq
    obtain rfl := eq_nil_of_bracket (List.append_cancel_right eq)
    rw [List.nil_append, ← closed, ← closed] at eq
    exact encode_inj (List.append_cancel_left (List.append_cancel_right eq))

/-- **A property can be read off its access,** whatever the targets are. -/
theorem accessText_inj {s s' target target' : Text} (h : target' ++ accessText s' = target ++ accessText s) :
    s' = s := by
  have first : accessText s <:+ target ++ accessText s := List.suffix_append _ _
  have second : accessText s' <:+ target ++ accessText s := h ▸ List.suffix_append _ _
  rcases List.suffix_or_suffix_of_suffix second first with ends | ends
  · exact eq_of_accessText_suffix ends
  · exact (eq_of_accessText_suffix ends).symm

/-! ## Builders -/

/-- A text that every builder writes as it stands, whatever it is written together with. At the start of a line it has
the indentation before it. -/
def Text.StandsFast (t : Text) : Prop :=
  ∀ (b : Builder) (x y : Text), (b.write (x ++ t ++ y)).text =
    (b.write x).text ++ (if (b.write x).atLineStart then pad b.indentation b.level else []) ++ t ++
      indented (pad b.indentation b.level) false y

/-- A text that is not empty and has no line ends stands fast. -/
theorem Text.standsFast_of_visible {t : Text} (nonempty : t ≠ []) (visible : Quoted.IsVisible t) : t.StandsFast := by
  intro b x y
  have oneLine : newline ∉ t := fun mem => absurd (visible newline mem) (by decide)
  have written (atStart : Bool) : indented (pad b.indentation b.level) atStart (t ++ y) =
      (if atStart then pad b.indentation b.level else []) ++ t ++ indented (pad b.indentation b.level) false y := by
    cases atStart with
    | false => exact indented_inline _ oneLine y
    | true =>
      obtain ⟨c, rest, rfl⟩ := List.exists_cons_of_ne_nil nonempty
      obtain ⟨first, others⟩ := not_or.mp (mt List.mem_cons.mpr oneLine)
      have line := indented_line (pad b.indentation b.level) (s := []) List.not_mem_nil (Ne.symm first) (rest ++ y)
      rw [indented_inline _ others] at line
      simpa using line
  have whole := indented_append (pad b.indentation b.level) b.atLineStart x (t ++ y)
  rw [written] at whole
  simp only [Builder.write, List.append_assoc]
  rw [← pad, whole]
  simp only [List.append_assoc]
  rfl

/-! ## What is written denotes its source -/

/-- **What is written for a text denotes it.** A string is written as a literal that reads back as its value. A key is
bare, and then an identifier, or such a literal; a property is a point with an identifier, or such a literal in
brackets, after its target. None of this has a unit below U+0020, so no builder changes it. Hence different texts are
written differently, as strings, as keys, and as properties of whatever targets. -/
theorem quoted_text_denotes_source (s : Text) :
    ((∀ (style : Style) (indentation : Text), (Expr.string s).render style indentation = .ok (Quoted.encode s)) ∧
      IsLiteral s (Quoted.encode s)) ∧
    ((∀ (value : Code) (indentation : Text),
        (entryCode s value).toText indentation = keyText s ++ ": " ++ value.toText indentation) ∧
      (s.IsIdentifier ∧ keyText s = s ∨ ¬s.IsIdentifier ∧ IsLiteral s (keyText s))) ∧
    ((∀ (target : Code) (indentation : Text),
        (propertyCode target s).toText indentation = target.toText indentation ++ accessText s) ∧
      (s.IsIdentifier ∧ accessText s = "." ++ s ∨
        ¬s.IsIdentifier ∧ ∃ literal, accessText s = "[" ++ literal ++ "]" ∧ IsLiteral s literal)) ∧
    (∀ t ∈ [Quoted.encode s, keyText s, accessText s], Quoted.IsVisible t ∧ t.StandsFast) ∧
    ∀ s', s' ≠ s → Quoted.encode s' ≠ Quoted.encode s ∧ keyText s' ≠ keyText s ∧
      ∀ target target' : Text, target' ++ accessText s' ≠ target ++ accessText s := by
  have literal := isLiteral_encode s
  have kept {t : Text} (nonempty : t ≠ []) (visible : Quoted.IsVisible t) : Quoted.IsVisible t ∧ t.StandsFast :=
    ⟨visible, t.standsFast_of_visible nonempty visible⟩
  have inQuotes := kept (List.cons_ne_nil _ _) (Quoted.visible_encode s)
  refine ⟨⟨fun style indentation => ?string, literal⟩, ⟨fun value indentation => ?entry, ?key⟩,
    ⟨fun target indentation => toText_propertyCode_eq target s indentation, ?access⟩, ?visible, fun s' ne => ?distinct⟩
  case string =>
    rw [Expr.render, Expr.code]
    exact congrArg Except.ok (Code.toText_text indentation _)
  case entry => simp [entryCode]
  case key =>
    refine (keyText_cases s).imp_right fun ⟨quoted, eq⟩ => ⟨quoted, ?_⟩
    rw [eq]
    exact literal
  case access => exact (accessText_cases s).imp_right fun ⟨quoted, eq⟩ => ⟨quoted, _, eq, literal⟩
  case visible =>
    simp only [List.forall_mem_cons, List.not_mem_nil, false_imp_iff, implies_true, and_true]
    refine ⟨inQuotes, ?_, ?_⟩
    · rcases keyText_cases s with ⟨bare, eq⟩ | ⟨-, eq⟩ <;> rw [eq]
      · exact kept bare.ne_nil bare.visible
      · exact inQuotes
    · rcases accessText_cases s with ⟨bare, eq⟩ | ⟨-, eq⟩ <;> rw [eq]
      · exact kept (List.cons_ne_nil _ _) (List.forall_mem_append.mpr ⟨Quoted.visible_of_all rfl, bare.visible⟩)
      · refine kept (List.cons_ne_nil _ _) (List.forall_mem_append.mpr ⟨?_, Quoted.visible_of_all rfl⟩)
        exact List.forall_mem_append.mpr ⟨Quoted.visible_of_all rfl, Quoted.visible_encode s⟩
  case distinct =>
    exact ⟨fun same => ne (encode_inj same), fun same => ne (keyText_inj same),
      fun target target' same => ne (accessText_inj same)⟩

end ExprScript
