import EntityGraph.Proofs.Lint.ExitStatus

/-!
# Batches of files

Files are linted one after the other, by the same reader and the same checks. Nothing that happens
to one of them shows in the report of another: the reader keeps nothing, and a file that cannot be
loaded, like a check that breaks off, ends the work on that file alone. So the reports of a batch
are those of its files, each as if it were linted alone.

What a report says of its own file is what was found until then: every issue is entered under its
severity, in the order in which it was found, and a fault adds one error to that.
-/

namespace EntityGraph

/-- A reader that keeps nothing reads every file anew, and stays as it is. -/
theorem Reader.load_value_of_not_caching {r : Reader} (h : r.caching = false) (t : Files.Tree)
    (file : Files.Path) :
    (r.load t file).value = ((Reader.load { caching := false } t file).value.1, r) := by
  have hkept (r : Reader) (h : r.caching = false) : r.kept? file = none := by
    rw [kept?, h]
    rfl
  rw [load, load]
  cases t.find file with
  | error e => rfl
  | ok found =>
    cases found with
    | none => rfl
    | some entry =>
      cases entry with
      | directory entries => rfl
      | device => rfl
      | file bytes =>
        simp only [hkept r h, hkept { caching := false } rfl, Logged.bind_value]
        cases Loaded.ofFile t file bytes with
        | error e => rfl
        | ok l => simp [keep, h]

namespace Lint

/-! ## What a report says -/

/-- The entry of an issue: its message with its location after it, and where that is. -/
def entryOf (base : Option Files.Path) (m : Source.Map) (file : Files.Path) (i : Issue) : Entry :=
  let location := m.locate (some i.pointer) (some file)
  { message := i.message ++ location.text base
    position := location.position
    pointer := some i.pointer }

/-- The entries of the issues of a severity, in their order. -/
def entriesOf (base : Option Files.Path) (m : Source.Map) (file : Files.Path) (severity : Severity)
    (issues : List Issue) : List Entry :=
  (issues.filter fun i ↦ i.severity = severity).map (entryOf base m file)

/-- The error of a fault that broke a check off. -/
def breakOffEntry (fault : Fault) : Entry :=
  { message := "Unexpected error during linting: " ++ fault.message }

variable {base : Option Files.Path} {file : Files.Path}

theorem entriesOf_append (m : Source.Map) (severity : Severity) (issues others : List Issue) :
    entriesOf base m file severity (issues ++ others) =
      entriesOf base m file severity issues ++ entriesOf base m file severity others := by
  rw [entriesOf, List.filter_append, List.map_append]
  rfl

theorem addIssue_eq (m : Source.Map) (r : Report) (i : Issue) :
    r.addIssue base m i =
      { r with
        errors := r.errors ++ entriesOf base m r.file .error [i]
        warnings := r.warnings ++ entriesOf base m r.file .warning [i] } := by
  rw [Report.addIssue]
  split
  next h => simp [Report.addError, entriesOf, entryOf, h]
  next h => simp [Report.addWarning, entriesOf, entryOf, h]

/-- Issues are added to what a report has already said. -/
theorem addIssues_eq (m : Source.Map) (r : Report) (issues : List Issue) :
    r.addIssues base m issues =
      { r with
        errors := r.errors ++ entriesOf base m r.file .error issues
        warnings := r.warnings ++ entriesOf base m r.file .warning issues } := by
  rw [Report.addIssues]
  induction issues generalizing r with
  | nil => simp [entriesOf]
  | cons i issues ih =>
    rw [List.foldl_cons, ih, addIssue_eq]
    simp only [List.append_assoc, ← entriesOf_append, List.singleton_append]

/-- What the report on a loaded document says: what both checks found if both answer; a single error
if the check of the structure breaks off; and if the check of the references does, one error after
everything that was found in the structure. -/
inductive Records (base : Option Files.Path) (file : Files.Path) (l : Loaded) : Report → Prop where
  | complete {structural references : List Issue} :
    (structureOf l.document).answer = .ok structural →
      (referencesOf file l.document).answer = .ok references →
      Records base file l
        { file
          errors := entriesOf base l.sourceMap file .error (structural ++ references)
          warnings := entriesOf base l.sourceMap file .warning (structural ++ references) }
  | withoutStructure {fault : Fault} :
    (structureOf l.document).answer = .error fault →
      Records base file l { file, errors := [breakOffEntry fault] }
  | withoutReferences {structural : List Issue} {fault : Fault} :
    (structureOf l.document).answer = .ok structural →
      (referencesOf file l.document).answer = .error fault →
      Records base file l
        { file
          errors := entriesOf base l.sourceMap file .error structural ++ [breakOffEntry fault]
          warnings := entriesOf base l.sourceMap file .warning structural }

theorem Records.file_eq {l : Loaded} {r : Report} (h : Records base file l r) : r.file = file := by
  cases h with
  | complete _ _ => rfl
  | withoutStructure _ => rfl
  | withoutReferences _ _ => rfl

theorem records_reportOf (l : Loaded) : Records base file l (reportOf base file l).value := by
  cases hstructure : (structureOf l.document).answer with
  | error fault =>
    rw [reportOf_of_structureOf_error hstructure]
    exact .withoutStructure hstructure
  | ok structural =>
    rw [reportOf_of_structureOf hstructure]
    cases hreferences : (referencesOf file l.document).answer with
    | error fault =>
      simp only [addIssues_eq, Report.brokenOff, Report.addError, List.nil_append]
      exact .withoutReferences hstructure hreferences
    | ok references =>
      simp only [addIssues_eq, List.nil_append, ← entriesOf_append]
      exact .complete hstructure hreferences

/-- What the report on a file says: a single error if the file cannot be loaded, and else what the
report on its document says. -/
inductive IsReportOn (words : Yaml.Wording) (base : Option Files.Path) (t : Files.Tree)
    (file : Files.Path) : Report → Prop where
  | unloaded {e : LoadError} :
    loadFile t file = .error e →
      IsReportOn words base t file { file, errors := [{ message := e.message words }] }
  | loaded {l : Loaded} {r : Report} :
    loadFile t file = .ok l → Records base file l r → IsReportOn words base t file r

theorem IsReportOn.file_eq {words : Yaml.Wording} {t : Files.Tree} {r : Report}
    (h : IsReportOn words base t file r) : r.file = file := by
  cases h with
  | unloaded _ => rfl
  | loaded _ hrecords => exact hrecords.file_eq

theorem Records.unique {l : Loaded} {r r' : Report} (h : Records base file l r)
    (h' : Records base file l r') : r = r' := by
  -- Each linter answers or fails on both, so only the same constructor can have given both.
  cases h with
  | complete hstructure hreferences =>
    cases h' with
    | complete hstructure' hreferences' =>
      cases hstructure.symm.trans hstructure'
      cases hreferences.symm.trans hreferences'
      rfl
    | withoutStructure hstructure' => cases hstructure.symm.trans hstructure'
    | withoutReferences _ hreferences' => cases hreferences.symm.trans hreferences'
  | withoutStructure hstructure =>
    cases h' with
    | complete hstructure' _ => cases hstructure.symm.trans hstructure'
    | withoutStructure hstructure' =>
      cases hstructure.symm.trans hstructure'
      rfl
    | withoutReferences hstructure' _ => cases hstructure.symm.trans hstructure'
  | withoutReferences hstructure hreferences =>
    cases h' with
    | complete _ hreferences' => cases hreferences.symm.trans hreferences'
    | withoutStructure hstructure' => cases hstructure.symm.trans hstructure'
    | withoutReferences hstructure' hreferences' =>
      cases hstructure.symm.trans hstructure'
      cases hreferences.symm.trans hreferences'
      rfl

/-- There is one report on a file. -/
theorem IsReportOn.unique {words : Yaml.Wording} {t : Files.Tree} {r r' : Report}
    (h : IsReportOn words base t file r) (h' : IsReportOn words base t file r') : r = r' := by
  cases h with
  | unloaded hload =>
    cases h' with
    | unloaded hload' =>
      cases hload.symm.trans hload'
      rfl
    | loaded hload' _ => cases hload.symm.trans hload'
  | loaded hload hrecords =>
    cases h' with
    | unloaded hload' => cases hload.symm.trans hload'
    | loaded hload' hrecords' =>
      cases hload.symm.trans hload'
      exact hrecords.unique hrecords'

theorem isReportOn_reportFile (words : Yaml.Wording) (base : Option Files.Path) (t : Files.Tree)
    (file : Files.Path) : IsReportOn words base t file (reportFile words base t file) := by
  rw [reportFile]
  cases hload : loadFile t file with
  | error e => exact .unloaded hload
  | ok l => exact .loaded hload (records_reportOf l)

/-! ## Batches -/

/-- The reports of a batch of files, each of which is loaded or is reported not to be: one for every
file, in order, the same as for the file alone, so that the reports of two batches are those of both
together. Each says what was found in its file up to the first fault, and adds one error for the
fault. Whatever the reader has done before, it reads every file anew and stays as it is. -/
theorem lintFiles_of_isReported (words : Yaml.Wording) (base : Option Files.Path)
    (t : Files.Tree) {files : List Files.Path}
    (h : ∀ file ∈ files, ∀ e, loadFile t file = .error e → e.isReported = true) :
    ∃ report : Files.Path → Report,
      (lintFiles words base t files).run.value = .ok (files.map report) ∧
      (∀ file ∈ files, (lintFiles words base t [file]).run.value = .ok [report file] ∧
        IsReportOn words base t file (report file) ∧ (report file).file = file) ∧
      (∀ xs ys, files = xs ++ ys →
        (lintFiles words base t xs).run.value = .ok (xs.map report) ∧
          (lintFiles words base t ys).run.value = .ok (ys.map report)) ∧
      ∀ r : Reader, r.caching = false → ∀ file, (r.load t file).value = (loadFile t file, r) := by
  refine ⟨reportFile words base t, lintFiles_eq_map h, ?_, ?_, ?_⟩
  · intro file hfile
    have hreport := isReportOn_reportFile words base t file
    refine ⟨?_, hreport, hreport.file_eq⟩
    apply lintFiles_eq_map
    exact List.forall_mem_singleton.mpr (h file hfile)
  · rintro xs ys rfl
    obtain ⟨hxs, hys⟩ := List.forall_mem_append.mp h
    exact ⟨lintFiles_eq_map hxs, lintFiles_eq_map hys⟩
  · intro r hr file
    exact Reader.load_value_of_not_caching hr t file

/-- A file that is linted twice with one that is missing in between: the missing one has a single
error, and both reports on the other are the same and have none. -/
theorem lintFiles_missing_between :
    let t := treeOf (numberedBytes ['1'])
    let files : List Files.Path := [.ofText "a.yaml", .ofText "b.yaml", .ofText "a.yaml"]
    (∀ file ∈ files, ∀ e, loadFile t file = .error e → e.isReported = true) ∧
      ∀ words, ∃ r : Report, r.errors = [] ∧
        (lintFiles words none t files).run.value = .ok
          [r, { file := .ofText "b.yaml"
                errors := [{ message := "Document file not found: b.yaml" }] }, r] := by
  intro t files
  have htext : Loaded.isTextOf (fun v ↦ (moduleNumber? v).any (· == 1))
      (numberedBytes ['1']) = true := by decide +kernel
  obtain ⟨n, sourceMap, hn, hload⟩ := exists_loadFile_treeOf htext
  cases eq_of_beq hn
  have hkeys : (Dropped.numberedDocument 1).keysWritable = true := by decide +kernel
  have hpass : FilePasses t (.ofText "a.yaml") :=
    ⟨_, hload, passes_numberedDocument 1,
      exists_droppedIssues_of_keysWritable (Dropped.structureIssues_numberedDocument 1) hkeys⟩
  have hmissing : loadFile t (.ofText "b.yaml") = .error (.notFound (.ofText "b.yaml")) := rfl
  have hreported : ∀ file ∈ files, ∀ e, loadFile t file = .error e → e.isReported = true := by
    intro file hfile e he
    have hfile : file = .ofText "a.yaml" ∨ file = .ofText "b.yaml" := by
      simpa [files, or_comm] using hfile
    obtain rfl | rfl := hfile
    · cases hload.symm.trans he
    · cases hmissing.symm.trans he
      rfl
  refine ⟨hreported, fun words ↦ ?_⟩
  obtain ⟨report, hbatch, heach, -⟩ := lintFiles_of_isReported words none t hreported
  obtain ⟨-, ha, -⟩ := heach (.ofText "a.yaml") (by simp [files])
  obtain ⟨-, hb, -⟩ := heach (.ofText "b.yaml") (by simp [files])
  refine ⟨report (.ofText "a.yaml"), ?_, ?_⟩
  · rw [ha.unique (isReportOn_reportFile words none t _)]
    exact errors_reportFile_eq_nil_iff.mpr hpass
  · have hreport := hb.unique (.unloaded hmissing)
    rw [hbatch]
    simp only [files, List.map_cons, List.map_nil, hreport]
    rfl

end Lint

end EntityGraph
