import ExprScript.CommandLine.Run
import Mathlib.Tactic.Common

/-!
# What a run of the command line leaves behind

`files_change_only_on_success`: a run that fails leaves all files as they were and prints nothing but the help text. One
that succeeds, and was not asked for help, has compiled the text of its input file, and the outcome is either printed or
the new content of exactly one file.

- `FileSystem.get?_set` and `FileSystem.write_eq_ok_iff` say what writing does;
- `CommandLine.Ending` lists the ways in which a run can end, and `CommandLine.run_ending` says that there are no
  others.
-/

namespace ExprScript

/-! ## Files -/

namespace FileSystem

variable {fs : FileSystem} {l : Location}

theorem lookup_filter_ne {other : Location} (ne : other ≠ l) (entries : List (Location × Entry)) :
    (entries.filter fun (at', _) => at' ≠ l).lookup other = entries.lookup other := by
  induction entries with
  | nil => rfl
  | cons first rest ih =>
    obtain ⟨at', entry⟩ := first
    by_cases same : at' = l
    · rw [List.filter_cons_of_neg (by simp [same]), ih, List.lookup_cons, same, beq_false_of_ne ne]
    · rw [List.filter_cons_of_pos (by simp [same]), List.lookup_cons, List.lookup_cons, ih]

/-- A new entry is at its location, and everything else is as it was. -/
theorem get?_set (below : l ≠ []) (e : Entry) (other : Location) :
    (fs.set l e).get? other = if other = l then some e else fs.get? other := by
  by_cases same : other = l
  · simp [get?, set, same, below]
  · rw [if_neg same, get?, get?, set, List.lookup_cons, beq_false_of_ne same, lookup_filter_ne same]

/-- A file can be written: the way to it leads through directories, it is none itself, and nothing is refused. -/
def IsWritable (fs : FileSystem) (l : Location) : Prop :=
  ∃ entry, fs.access .writing l = .ok entry ∧ entry ≠ some .directory

theorem access_eq_ok_iff {a : FileAccess} {entry : Option Entry} :
    fs.access a l = .ok entry ↔ fs.lookup l = .ok entry ∧ fs.refusals.lookup (l, a) = none := by
  unfold access
  cases fs.lookup l with
  | error e => simp [bind, Except.bind]
  | ok found => cases fs.refusals.lookup (l, a) <;> simp [bind, Except.bind]

/-- The root, which is a directory, cannot be written. -/
theorem IsWritable.ne_root (h : fs.IsWritable l) : l ≠ [] := by
  rintro rfl
  obtain ⟨entry, accessed, ne⟩ := h
  have root : fs.lookup [] = .ok (some .directory) := rfl
  exact ne (Except.ok.inj ((access_eq_ok_iff.mp accessed).1.symm.trans root))

/-- Writing sets the file if that can be done, and fails otherwise. -/
theorem write_eq_ok_iff {content : Thunk (List UInt8)} {fs' : FileSystem} :
    fs.write l content = .ok fs' ↔ fs.IsWritable l ∧ fs' = fs.set l (.file content.get) := by
  unfold write IsWritable
  cases fs.access .writing l with
  | error e => simp [bind, Except.bind]
  | ok entry =>
    simp only [bind, Except.bind, Except.ok.injEq, exists_eq_left']
    split
    · simp
    · rename_i other
      have notDirectory : entry ≠ some .directory := other
      simp [notDirectory, eq_comm]

end FileSystem

/-! ## The ways in which a run ends -/

theorem nonEmpty?_eq_none_iff {t : Option Text} : nonEmpty? t = none ↔ t = none ∨ t = some [] := by
  match t with
  | none => simp [nonEmpty?]
  | some [] => simp [nonEmpty?]
  | some (u :: rest) => simp [nonEmpty?]

theorem nonEmpty?_eq_some_iff {t : Option Text} {s : Text} : nonEmpty? t = some s ↔ t = some s ∧ s ≠ [] := by
  match t with
  | none => simp [nonEmpty?]
  | some [] => simp [nonEmpty?]
  | some (u :: rest) => simp +contextual [nonEmpty?, eq_comm]

/-- A text is compiled exactly if its rendering is made. -/
theorem compile_eq_ok_iff {parser : SyntaxParser} {s : Settings} {source t : Text} :
    compile parser s source = .ok t ↔ ∃ output, rendering parser s source = .ok output ∧ output.get = t := by
  unfold compile
  cases rendering parser s source with
  | error e => simp [Except.map]
  | ok output => simp [Except.map]

namespace CommandLine

section Endings

variable (parser : SyntaxParser) (workingDirectory : Location) (args : List Text) (fs : FileSystem)

/-- The arguments ask for a compilation of a file, which has been read. -/
structure Reads (o : Invocation) (source : Text) : Prop where
  asked : Args.parse args = .run o
  read : ∃ content, fs.read (Location.resolve workingDirectory o.inputFile) = .ok content ∧ Utf8.decode content = source

/-- How a run ends, and why. -/
inductive Ending : Outcome → Prop
  | help : Args.parse args = .help → Ending ⟨0, printed help, [], fs⟩
  | badArguments {e : ArgsError} : Args.parse args = .error e →
      Ending ⟨1, printed help, printed ("Error: " ++ e.message), fs⟩
  | unreadable {o : Invocation} {e : FileError} : Args.parse args = .run o →
      fs.read (Location.resolve workingDirectory o.inputFile) = .error e →
      Ending (failed fs (printed ("Error reading file: " ++ (Location.resolve workingDirectory o.inputFile).text) ++
        printed e.message))
  | notCompiled {o : Invocation} {source : Text} {e : CompileError} : Reads workingDirectory args fs o source →
      compile parser o.toSettings source = .error e →
      Ending (failed fs (printed ((e.failure rootName).format o.color o.inputFile)))
  | unwritable {o : Invocation} {file : Text} {e : FileError} : Args.parse args = .run o → o.outputFile = some file →
      file ≠ [] → ¬ fs.IsWritable (Location.resolve workingDirectory file) →
      Ending (failed fs (printed ("Error writing file: " ++ (Location.resolve workingDirectory file).text) ++
        printed e.message))
  | written {o : Invocation} {source file t : Text} : Reads workingDirectory args fs o source →
      compile parser o.toSettings source = .ok t → o.outputFile = some file → file ≠ [] →
      fs.IsWritable (Location.resolve workingDirectory file) →
      Ending ⟨0, [], printed ("Rendered " ++ o.inputFile ++ " -> " ++ file),
        fs.set (Location.resolve workingDirectory file) (.file (Utf8.encode t))⟩
  | shown {o : Invocation} {source t : Text} : Reads workingDirectory args fs o source →
      compile parser o.toSettings source = .ok t → o.outputFile = none ∨ o.outputFile = some [] → Ending ⟨0, t, [], fs⟩

variable {parser workingDirectory args fs}

/-- What is asked for, and what is read for it, does not depend on the point of view. -/
theorem Reads.unique {o o' : Invocation} {source source' : Text} (h : Reads workingDirectory args fs o source)
    (h' : Reads workingDirectory args fs o' source') : o = o' ∧ source = source' := by
  obtain rfl := ParsedArgs.run.inj (h.asked.symm.trans h'.asked)
  obtain ⟨content, read, rfl⟩ := h.read
  obtain ⟨content', read', rfl⟩ := h'.read
  rw [Except.ok.inj (read.symm.trans read')]
  exact ⟨rfl, rfl⟩

/-- What has been rendered is shown, or written if that can be done. -/
theorem deliver_ending {o : Invocation} {source : Text} {output : Thunk Text}
    (reads : Reads workingDirectory args fs o source) (compiled : compile parser o.toSettings source = .ok output.get) :
    Ending parser workingDirectory args fs (deliver workingDirectory o fs output) := by
  cases target : nonEmpty? o.outputFile with
  | none =>
    simp only [deliver, target]
    exact .shown reads compiled (nonEmpty?_eq_none_iff.mp target)
  | some file =>
    obtain ⟨named, nonempty⟩ := nonEmpty?_eq_some_iff.mp target
    cases written : fs.write (Location.resolve workingDirectory file) (output.map Utf8.encode) with
    | ok fs' =>
      obtain ⟨writable, rfl⟩ := FileSystem.write_eq_ok_iff.mp written
      simp only [deliver, target, written]
      exact .written reads compiled named nonempty writable
    | error e =>
      simp only [deliver, target, written]
      refine .unwritable reads.asked named nonempty fun writable => ?_
      rw [FileSystem.write_eq_ok_iff.mpr ⟨writable, rfl⟩] at written
      cases written

/-- **A run ends in one of these ways.** -/
theorem run_ending : Ending parser workingDirectory args fs (run parser workingDirectory args fs) := by
  cases parsed : Args.parse args with
  | help =>
    simp only [run, parsed]
    exact .help parsed
  | error e =>
    simp only [run, parsed]
    exact .badArguments parsed
  | run o =>
    cases read : fs.read (Location.resolve workingDirectory o.inputFile) with
    | error e =>
      simp only [run, parsed, render, read]
      exact .unreadable parsed read
    | ok content =>
      have reads : Reads workingDirectory args fs o (Utf8.decode content) := ⟨parsed, content, read, rfl⟩
      cases made : rendering parser o.toSettings (Utf8.decode content) with
      | error e =>
        have notCompiled : compile parser o.toSettings (Utf8.decode content) = .error e := by
          rw [compile, made]
          rfl
        simp only [run, parsed, render, read, made]
        exact .notCompiled reads notCompiled
      | ok output =>
        simp only [run, parsed, render, read, made]
        exact deliver_ending reads (compile_eq_ok_iff.mpr ⟨output, made, rfl⟩)

end Endings

/-! ## Files change only on success -/

/-- The text `t` is where the invocation wants it. It is the content of the output file, everything else being as it
was, or with no output file it is what is printed. -/
inductive Delivered (workingDirectory : Location) (o : Invocation) (t : Text) (fs : FileSystem) (r : Outcome) : Prop
  | written (file : Text) : o.outputFile = some file → file ≠ [] → r.stdout = [] →
      (∀ l, r.files.get? l =
        if l = Location.resolve workingDirectory file then some (.file (Utf8.encode t)) else fs.get? l) →
      r.files.refusals = fs.refusals → Delivered workingDirectory o t fs r
  | shown : o.outputFile = none ∨ o.outputFile = some [] → r.stdout = t → r.files = fs →
      Delivered workingDirectory o t fs r

/-- The output file, if there is one, can be written. -/
def CanDeliver (workingDirectory : Location) (o : Invocation) (fs : FileSystem) : Prop :=
  ∀ file, o.outputFile = some file → file ≠ [] → fs.IsWritable (Location.resolve workingDirectory file)

/-- **Files change only on success.** A run that fails changes no file, and prints the help text or nothing. A run that
succeeds, and was not asked for help, was asked to compile a file that can be read, its text has been compiled, and the
outcome is where it is wanted. There is no other reason to fail: whenever all this can be done, the run succeeds. -/
theorem files_change_only_on_success (parser : SyntaxParser) (workingDirectory : Location) (args : List Text)
    (fs : FileSystem) :
    let r := run parser workingDirectory args fs
    (r.exitCode ≠ 0 → r.files = fs ∧ (r.stdout = [] ∨ r.stdout = printed help)) ∧
    (r.exitCode = 0 → Args.parse args ≠ .help →
      ∃ o source t, Reads workingDirectory args fs o source ∧ compile parser o.toSettings source = .ok t ∧
        Delivered workingDirectory o t fs r) ∧
    ∀ o source t, Reads workingDirectory args fs o source → compile parser o.toSettings source = .ok t →
      CanDeliver workingDirectory o fs → r.exitCode = 0 := by
  intro r
  have ending : Ending parser workingDirectory args fs r := run_ending
  clear_value r
  refine ⟨fun failed => ?_, fun succeeded notHelp => ?_, fun o source t reads compiled canDeliver => ?_⟩
  · cases ending with
    | help | written | shown => exact absurd rfl failed
    | badArguments => exact ⟨rfl, .inr rfl⟩
    | unreadable | notCompiled | unwritable => exact ⟨rfl, .inl rfl⟩
  · cases ending with
    | help asked => exact absurd asked notHelp
    | badArguments | unreadable | notCompiled | unwritable => cases succeeded
    | written reads compiled named nonempty writable =>
      exact ⟨_, _, _, reads, compiled, .written _ named nonempty rfl (FileSystem.get?_set writable.ne_root _) rfl⟩
    | shown reads compiled unnamed => exact ⟨_, _, _, reads, compiled, .shown unnamed rfl rfl⟩
  · cases ending with
    | help | written | shown => rfl
    | badArguments asked => cases reads.asked.symm.trans asked
    | unreadable asked unreadable =>
      obtain rfl := ParsedArgs.run.inj (reads.asked.symm.trans asked)
      obtain ⟨content, read, -⟩ := reads.read
      cases read.symm.trans unreadable
    | notCompiled reads' notCompiled =>
      obtain ⟨rfl, rfl⟩ := reads.unique reads'
      cases compiled.symm.trans notCompiled
    | unwritable asked named nonempty unwritable =>
      obtain rfl := ParsedArgs.run.inj (reads.asked.symm.trans asked)
      exact absurd (canDeliver _ named nonempty) unwritable

/-- A directory with one file, the JSON text of `true`. -/
def oneFile : FileSystem where
  entries := [(["x"], .file (Utf8.encode "\x7b\"kind\":\"bool\",\"value\":true\x7d"))]

/-- Arguments that name the input file as output file, by another path. -/
def inPlace : List Text := ["x", "-o", "y/../x"]

theorem files_change_only_on_success_inPlace :
    ((run (fun _ => []) [] [] oneFile).exitCode ≠ 0 ∧ (run (fun _ => []) [] [] oneFile).files = oneFile) ∧
    ∃ o source t, Reads [] inPlace oneFile o source ∧ compile (fun _ => []) o.toSettings source = .ok t ∧
      CanDeliver [] o oneFile ∧ (run (fun _ => []) [] inPlace oneFile).exitCode = 0 ∧
      Delivered [] o t oneFile (run (fun _ => []) [] inPlace oneFile) ∧
      (run (fun _ => []) [] inPlace oneFile).files = { entries := [(["x"], .file (Utf8.encode "true\n"))] } := by
  have refused : (run (fun _ => []) [] [] oneFile).exitCode ≠ 0 := by decide
  have succeeded : (run (fun _ => []) [] inPlace oneFile).exitCode = 0 := by decide +kernel
  obtain ⟨o, source, t, reads, compiled, delivered⟩ :=
    (files_change_only_on_success (fun _ => []) [] inPlace oneFile).2.1 succeeded (by decide)
  have asked : Args.parse inPlace = .run { inputFile := "x", outputFile := some "y/../x" } := by decide
  have writable : oneFile.IsWritable (Location.resolve [] "y/../x") := ⟨oneFile.get? ["x"], by decide, by decide⟩
  have canDeliver : CanDeliver [] o oneFile := by
    intro file named _
    obtain rfl := ParsedArgs.run.inj (reads.asked.symm.trans asked)
    exact Option.some.inj named ▸ writable
  exact ⟨⟨refused, ((files_change_only_on_success (fun _ => []) [] [] oneFile).1 refused).1⟩, o, source, t, reads,
    compiled, canDeliver,
    (files_change_only_on_success (fun _ => []) [] inPlace oneFile).2.2 o source t reads compiled canDeliver, delivered,
    by decide +kernel⟩

end CommandLine

end ExprScript
