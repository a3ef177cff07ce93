import ExprScript.CommandLine.Args
import ExprScript.Proofs.Text.Basic
import Mathlib.Tactic.Common

/-!
# The grammar of a command line

A command line is a sequence of items: flags, options with their value, and positional arguments. `Item.Written` is the
grammar of one item and `Splits` that of a sequence. What stands where a value is due is a value, whatever it looks
like.

- `gathered` is the invocation that items ask for: the last value of an option counts, and the order of items with
  different meanings does not;
- `Stops` lists the arguments with which the parser does not go on, and its answers. All other arguments start with an
  item that it can consume (`item_or_stops`);
- `parseFrom_written` is the step of the parser over one item, and `parseFrom_splits` is its run over a sequence;
- `parse_follows_grammar` says what the parser answers to any arguments.
-/

namespace ExprScript.Args

/-! ## Items -/

/-- A flag, an option with its value, or a positional argument. -/
inductive Item where
  | module
  | check
  | noColor
  | output (file : Text)
  | indent (width : Nat)
  | input (name : Text)
deriving DecidableEq

/-- The texts that have a meaning where an item is due. -/
def options : List Text :=
  [("-h" : Text), ("--help" : Text), ("-o" : Text), ("--output" : Text), ("--indent" : Text), ("--module" : Text),
    ("--check" : Text), ("--no-color" : Text)]

/-- Whether an argument looks like an option. -/
abbrev IsDashed (arg : Text) : Prop := arg.head? = some (unit '-')

/-- How an item is written. -/
inductive Item.Written : Item → List Text → Prop
  | module : Written .module [("--module" : Text)]
  | check : Written .check [("--check" : Text)]
  | noColor : Written .noColor [("--no-color" : Text)]
  | output {flag : Text} (spelling : flag = "-o" ∨ flag = "--output") (file : Text) :
      Written (.output file) [flag, file]
  | indent {width : Text} {n : Nat} (whole : (Numeral.value width).toNat? = some n) :
      Written (.indent n) [("--indent" : Text), width]
  | input {name : Text} (plain : ¬IsDashed name) : Written (.input name) [name]

/-- The arguments are items, one after the other. -/
inductive Splits : List Item → List Text → Prop
  | nil : Splits [] []
  | cons {item : Item} {words : List Text} {items : List Item} {args : List Text} :
      item.Written words → Splits items args → Splits (item :: items) (words ++ args)

/-! ## What items ask for -/

/-- The output files that are named. -/
def outputs (items : List Item) : List Text :=
  items.filterMap fun
    | .output file => some file
    | _ => none

/-- The widths that are named. -/
def widths (items : List Item) : List Nat :=
  items.filterMap fun
    | .indent n => some n
    | _ => none

/-- The positional arguments. -/
def inputs (items : List Item) : List Text :=
  items.filterMap fun
    | .input name => some name
    | _ => none

/-- The invocation that items ask for. -/
def gathered (items : List Item) : Invocation where
  module := .module ∈ items
  indent := (widths items).getLast?.getD 2
  check := .check ∈ items
  inputFile := (inputs items).getLast?.getD []
  outputFile := (outputs items).getLast?
  color := .noColor ∉ items

/-- A positional argument that another one follows is empty. -/
def Consumable (items : List Item) : Prop := (inputs items).Pairwise fun before _ => before = []

/-- What one item changes. -/
def Item.apply (o : Invocation) : Item → Invocation
  | .module => { o with module := true }
  | .check => { o with check := true }
  | .noColor => { o with color := false }
  | .output file => { o with outputFile := some file }
  | .indent n => { o with indent := n }
  | .input name => { o with inputFile := name }

theorem gathered_append (items : List Item) (item : Item) :
    gathered (items ++ [item]) = item.apply (gathered items) := by
  cases item <;> simp [gathered, Item.apply, outputs, widths, inputs]

theorem inputs_append (items more : List Item) : inputs (items ++ more) = inputs items ++ inputs more :=
  List.filterMap_append

variable {items : List Item}

theorem Consumable.of_append {more : List Item} (h : Consumable (items ++ more)) : Consumable items := by
  rw [Consumable, inputs_append, List.pairwise_append] at h
  exact h.1

/-- A positional argument can be consumed if all before it are empty. -/
theorem consumable_append_input_iff {name : Text} (h : Consumable items) :
    Consumable (items ++ [.input name]) ↔ ∀ before ∈ inputs items, before = [] := by
  have last : inputs [.input name] = [name] := rfl
  rw [Consumable, inputs_append, last, List.pairwise_append]
  simp [show (inputs items).Pairwise _ from h]

/-- Any other item can be consumed. -/
theorem Consumable.append (h : Consumable items) {item : Item} (other : inputs [item] = []) :
    Consumable (items ++ [item]) := by
  rwa [Consumable, inputs_append, other, List.append_nil]

/-- The positional arguments are empty texts and then the input file, if there are any. -/
theorem Consumable.inputs_eq (h : Consumable items) :
    inputs items = [] ∧ (gathered items).inputFile = [] ∨
      ∃ n, inputs items = List.replicate n [] ++ [(gathered items).inputFile] := by
  obtain empty | ⟨front, last, eq⟩ := List.eq_nil_or_concat (inputs items)
  · exact .inl ⟨empty, by simp [gathered, empty]⟩
  · rw [Consumable, eq, List.concat_eq_append, List.pairwise_append] at h
    have file : (gathered items).inputFile = last := by simp [gathered, eq]
    have empty : ∀ name ∈ front, name = [] := fun name mem => h.2.2 name mem last (by simp)
    refine .inr ⟨front.length, ?_⟩
    rw [eq, file, List.concat_eq_append, List.eq_replicate_of_mem empty, List.length_replicate]

theorem consumable_of_inputs_eq {n : Nat} {name : Text} (h : inputs items = List.replicate n [] ++ [name]) :
    Consumable items := by
  rw [Consumable, h, List.pairwise_append]
  simp [List.pairwise_replicate]

/-- No input file is named exactly if all positional arguments are empty. -/
theorem Consumable.inputFile_eq_nil_iff (h : Consumable items) :
    (gathered items).inputFile = [] ↔ ∀ name ∈ inputs items, name = [] := by
  obtain ⟨nothing, unnamed⟩ | ⟨n, eq⟩ := h.inputs_eq
  · simp [nothing, unnamed]
  · have empty : ∀ name ∈ List.replicate n ([] : Text), name = [] := fun _ => List.eq_of_mem_replicate
    rw [eq, List.forall_mem_append, List.forall_mem_singleton, and_iff_right empty]

/-! ## Arguments that stop the parser -/

/-- What the parser answers after items if it does not go on with the arguments that are left. -/
inductive Stops (items : List Item) : List Text → ParsedArgs → Prop
  | finished (named : (gathered items).inputFile ≠ []) : Stops items [] (.run (gathered items))
  | noInput (unnamed : ∀ name ∈ inputs items, name = []) : Stops items [] (.error .noInput)
  | help {arg : Text} (spelling : arg = "-h" ∨ arg = "--help") (rest : List Text) : Stops items (arg :: rest) .help
  | missingOutput {arg : Text} (spelling : arg = "-o" ∨ arg = "--output") : Stops items [arg] (.error .missingOutput)
  | missingIndent : Stops items [("--indent" : Text)] (.error .badIndent)
  | badIndent {width : Text} (other : (Numeral.value width).toNat? = none) (rest : List Text) :
      Stops items (("--indent" : Text) :: width :: rest) (.error .badIndent)
  | unknownOption {arg : Text} (dashed : IsDashed arg) (unknown : arg ∉ options) (rest : List Text) :
      Stops items (arg :: rest) (.error (.unknownOption arg))
  | secondInput {arg : Text} (plain : ¬IsDashed arg) (named : ∃ name ∈ inputs items, name ≠ []) (rest : List Text) :
      Stops items (arg :: rest) (.error .secondInput)

theorem option_cases {arg : Text} (h : arg ∈ options) : (arg = "-h" ∨ arg = "--help") ∨
    (arg = "-o" ∨ arg = "--output") ∨ arg = "--indent" ∨ arg = "--module" ∨ arg = "--check" ∨ arg = "--no-color" := by
  simpa [options, or_assoc] using h

/-- **The grammar is total:** arguments start with an item that can be consumed, or stop the parser. -/
theorem item_or_stops (consumable : Consumable items) (args : List Text) :
    (∃ item words rest, args = words ++ rest ∧ item.Written words ∧ Consumable (items ++ [item])) ∨
      ∃ r, Stops items args r := by
  cases args with
  | nil =>
    by_cases unnamed : (gathered items).inputFile = []
    · exact .inr ⟨_, .noInput (consumable.inputFile_eq_nil_iff.mp unnamed)⟩
    · exact .inr ⟨_, .finished unnamed⟩
  | cons arg rest =>
    by_cases known : arg ∈ options
    · rcases option_cases known with help | output | rfl | rfl | rfl | rfl
      · exact .inr ⟨_, .help help rest⟩
      · cases rest with
        | nil => exact .inr ⟨_, .missingOutput output⟩
        | cons file rest => exact .inl ⟨.output file, _, rest, rfl, .output output file, consumable.append rfl⟩
      · cases rest with
        | nil => exact .inr ⟨_, .missingIndent⟩
        | cons width rest =>
          cases value : (Numeral.value width).toNat? with
          | none => exact .inr ⟨_, .badIndent value rest⟩
          | some n => exact .inl ⟨.indent n, _, rest, rfl, .indent value, consumable.append rfl⟩
      · exact .inl ⟨.module, _, rest, rfl, .module, consumable.append rfl⟩
      · exact .inl ⟨.check, _, rest, rfl, .check, consumable.append rfl⟩
      · exact .inl ⟨.noColor, _, rest, rfl, .noColor, consumable.append rfl⟩
    · by_cases dashed : IsDashed arg
      · exact .inr ⟨_, .unknownOption dashed known rest⟩
      · by_cases unnamed : ∀ name ∈ inputs items, name = []
        · exact .inl ⟨.input arg, _, rest, rfl, .input dashed, (consumable_append_input_iff consumable).mpr unnamed⟩
        · exact .inr ⟨_, .secondInput dashed (by simpa using unnamed) rest⟩

theorem Item.Written.ne_nil {item : Item} {words : List Text} (h : item.Written words) : words ≠ [] := by
  cases h <;> simp

/-- **Consuming items comes to an end** where the parser stops. -/
theorem exists_stops (consumable : Consumable items) (args : List Text) :
    ∃ more front back r, args = front ++ back ∧ Splits more front ∧ Consumable (items ++ more) ∧
      Stops (items ++ more) back r := by
  -- on the number of arguments, since an item takes one or two
  induction length : args.length using Nat.strongRecOn generalizing items args with
  | _ n ih =>
    rcases item_or_stops consumable args with ⟨item, words, rest, rfl, written, next⟩ | ⟨r, stops⟩
    · have positive := List.length_pos_iff.mpr written.ne_nil
      have shorter : rest.length < n := by
        rw [← length, List.length_append]
        omega
      obtain ⟨more, front, back, r, rfl, splits, all, stops⟩ := ih _ shorter next rest rfl
      rw [List.append_assoc] at all stops
      exact ⟨item :: more, words ++ front, back, r, (List.append_assoc ..).symm, .cons written splits, all, stops⟩
    · exact ⟨[], [], args, r, rfl, .nil, by rwa [List.append_nil], by rwa [List.append_nil]⟩

/-! ## The parser -/

theorem isDashed_of_mem_options {arg : Text} (h : arg ∈ options) : IsDashed arg := by
  have dashed : ∀ arg ∈ options, IsDashed arg := by decide
  exact dashed arg h

/-- What is no option that the parser knows is an error if it looks like one, and else an input file. -/
theorem parseFrom_other (o : Invocation) {arg : Text} (h : arg ∉ options) (rest : List Text) :
    parseFrom o (arg :: rest) =
      if IsDashed arg then .error (.unknownOption arg)
      else if o.inputFile = [] then parseFrom { o with inputFile := arg } rest
      else .error .secondInput := by
  simp only [options, List.mem_cons, List.not_mem_nil, not_or] at h
  rw [parseFrom.eq_def]
  simp [h]

/-- The parser goes on after an item that it can consume. -/
theorem parseFrom_written {item : Item} {words : List Text} (written : item.Written words)
    (consumable : Consumable (items ++ [item])) (rest : List Text) :
    parseFrom (gathered items) (words ++ rest) = parseFrom (gathered (items ++ [item])) rest := by
  rw [gathered_append]
  cases written with
  | module =>
    rw [parseFrom.eq_def]
    simp [Item.apply]
  | check =>
    rw [parseFrom.eq_def]
    simp [Item.apply]
  | noColor =>
    rw [parseFrom.eq_def]
    simp [Item.apply]
  | output spelling file => rcases spelling with rfl | rfl <;> simp [parseFrom, Item.apply]
  | indent whole => simp [parseFrom, Item.apply, whole]
  | @input name plain =>
    have before := consumable.of_append
    have unnamed := before.inputFile_eq_nil_iff.mpr ((consumable_append_input_iff before).mp consumable)
    have other : name ∉ options := fun h => plain (isDashed_of_mem_options h)
    simp [parseFrom_other _ other, plain, unnamed, Item.apply]

/-- The parser goes on after items that it can consume. -/
theorem parseFrom_splits {more : List Item} {front : List Text} (splits : Splits more front)
    (consumable : Consumable (items ++ more)) (back : List Text) :
    parseFrom (gathered items) (front ++ back) = parseFrom (gathered (items ++ more)) back := by
  induction splits generalizing items with
  | nil => rw [List.nil_append, List.append_nil]
  | @cons item words more args written _ ih =>
    rw [List.append_cons] at consumable ⊢
    rw [List.append_assoc, parseFrom_written written consumable.of_append, ih consumable]

/-- The parser answers where it stops. -/
theorem parseFrom_stops (consumable : Consumable items) {back : List Text} {r : ParsedArgs}
    (stops : Stops items back r) : parseFrom (gathered items) back = r := by
  cases stops with
  | finished named => simp [parseFrom, named]
  | noInput unnamed => simp [parseFrom, consumable.inputFile_eq_nil_iff.mpr unnamed]
  | help spelling rest =>
    rw [parseFrom.eq_def]
    simp [spelling]
  | missingOutput spelling => rcases spelling with rfl | rfl <;> simp [parseFrom]
  | missingIndent => simp [parseFrom]
  | badIndent other rest => simp [parseFrom, other]
  | unknownOption dashed unknown rest => rw [parseFrom_other _ unknown, if_pos dashed]
  | secondInput plain named rest =>
    have other : _ ∉ options := fun h => plain (isDashed_of_mem_options h)
    have file : (gathered items).inputFile ≠ [] := by
      intro unnamed
      obtain ⟨name, mem, ne⟩ := named
      exact ne (consumable.inputFile_eq_nil_iff.mp unnamed name mem)
    rw [parseFrom_other _ other, if_neg plain, if_neg file]

/-- **The answer to arguments** is the one where the parser stops, after the items that it can consume. -/
theorem parse_eq_iff {args : List Text} {r : ParsedArgs} : parse args = r ↔
    ∃ items front back, args = front ++ back ∧ Splits items front ∧ Consumable items ∧ Stops items back r := by
  have answer {items : List Item} {front back : List Text} {r : ParsedArgs} (splits : Splits items front)
      (consumable : Consumable items) (stops : Stops items back r) : parse (front ++ back) = r := by
    have all : Consumable ([] ++ items) := consumable
    exact (parseFrom_splits splits all back).trans (parseFrom_stops consumable stops)
  constructor
  · rintro rfl
    have start : Consumable [] := .nil
    obtain ⟨items, front, back, r, rfl, splits, consumable, stops⟩ := exists_stops start args
    exact ⟨items, front, back, rfl, splits, consumable, answer splits consumable stops ▸ stops⟩
  · rintro ⟨items, front, back, rfl, splits, consumable, stops⟩
    exact answer splits consumable stops

/-- Only the absence of an input file is reported as such. -/
theorem message_eq_noInput_iff {e : ArgsError} : e.message = ArgsError.noInput.message ↔ e = .noInput := by
  refine ⟨fun same => ?_, fun h => h ▸ rfl⟩
  cases e with
  | unknownOption arg =>
    have first : (ArgsError.unknownOption arg).message.head? = some (unit 'U') := rfl
    rw [same] at first
    exact absurd first (by decide)
  | noInput => rfl
  | _ => simp [ArgsError.message] at same

/-- **The parser accepts exactly its grammar.** Arguments are taken exactly if they are items, of which the positional
ones are empty texts and then one that is not empty, and what is asked for is what the items ask for (`gathered`): the
last positional argument, the last output file and width, and the flags that occur. In any case the answer is the one
where the parser stops, after all items that can be consumed (`Stops`). In particular, it finds no input file exactly
if the arguments are items with nothing but empty texts among the positional ones. -/
theorem parse_follows_grammar (args : List Text) :
    (∀ o, parse args = .run o ↔
      ∃ items, Splits items args ∧ (∃ n, inputs items = List.replicate n [] ++ [o.inputFile]) ∧ o.inputFile ≠ [] ∧
        o = gathered items) ∧
    (∀ r, parse args = r ↔
      ∃ items front back, args = front ++ back ∧ Splits items front ∧ Consumable items ∧ Stops items back r) ∧
    ((∃ e, parse args = .error e ∧ e.message = "No input file specified") ↔
      ∃ items, Splits items args ∧ ∀ name ∈ inputs items, name = []) := by
  refine ⟨fun o => ?run, fun r => parse_eq_iff, ?noInput⟩
  case run =>
    rw [parse_eq_iff]
    constructor
    · rintro ⟨items, front, back, rfl, splits, consumable, stops⟩
      cases stops with
      | finished named =>
        have positional := consumable.inputs_eq.resolve_left fun nothing => named nothing.2
        exact ⟨items, by rwa [List.append_nil], positional, named, rfl⟩
    · rintro ⟨items, splits, ⟨n, eq⟩, named, rfl⟩
      exact ⟨items, args, [], by simp, splits, consumable_of_inputs_eq eq, .finished named⟩
  case noInput =>
    constructor
    · rintro ⟨e, failed, message⟩
      obtain rfl := message_eq_noInput_iff.mp message
      obtain ⟨items, front, back, rfl, splits, -, stops⟩ := parse_eq_iff.mp failed
      cases stops with
      | noInput unnamed => exact ⟨items, by rwa [List.append_nil], unnamed⟩
    · rintro ⟨items, splits, unnamed⟩
      have consumable : Consumable items := List.pairwise_of_forall_mem_list fun name mem _ _ => unnamed name mem
      exact ⟨_, parse_eq_iff.mpr ⟨items, args, [], by simp, splits, consumable, .noInput unnamed⟩, rfl⟩

-- where a value is due, what looks like an option is a value
example : parse [("-o" : Text), ("--help" : Text), [], ("a.json" : Text), ("--check" : Text)] =
    .run { check := true, inputFile := "a.json", outputFile := some "--help" } := rfl

end ExprScript.Args
