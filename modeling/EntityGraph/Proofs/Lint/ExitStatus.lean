import EntityGraph.Lint.Run
import EntityGraph.Proofs.Check.Findings
import EntityGraph.Proofs.Documents.Texts
import EntityGraph.Proofs.Lint.Printing
import EntityGraph.Proofs.Lint.ValidDocuments

/-!
# The exit status of a run

A run that lints ends with zero if it found documents and none of them has an error, and with one
otherwise. Which documents have no error can be said without the reports: those that are valid and
describe a project in which no parent is an enumeration and no chain comes back, as long as both
walks through them can be told. What is dropped and what is unresolved are warnings.

A run is broken off where a file may not be looked for, and where its reports cannot be printed. The
latter depends on the format: JSON can always be printed, so a run that is broken off in another
format may end with zero in that one. Otherwise the format is about the output only.
-/

namespace EntityGraph

open Schema

namespace Lint

/-! ## Reports without errors -/

section

variable {base : Option Files.Path} {file : Files.Path} {l : Loaded}

theorem errors_addIssue_eq_nil_iff {m : Source.Map} {r : Report} {i : Issue} :
    (r.addIssue base m i).errors = [] ↔ r.errors = [] ∧ i.severity = .warning := by
  rw [Report.addIssue]
  split
  next h =>
    rw [h, Report.addError, List.append_eq_nil_iff]
    simp
  next h =>
    rw [h]
    simp [Report.addWarning]

/-- The issues add no error exactly if all of them are warnings. -/
theorem errors_addIssues_eq_nil_iff {m : Source.Map} {r : Report} {issues : List Issue} :
    (r.addIssues base m issues).errors = [] ↔
      r.errors = [] ∧ ∀ i ∈ issues, i.severity = .warning := by
  rw [Report.addIssues]
  induction issues generalizing r with
  | nil => simp
  | cons i issues ih =>
    rw [List.foldl_cons, ih, errors_addIssue_eq_nil_iff, List.forall_mem_cons, and_assoc]

theorem errors_brokenOff_ne_nil (r : Report) (fault : Fault) : (r.brokenOff fault).errors ≠ [] :=
  List.append_ne_nil_of_right_ne_nil _ (List.cons_ne_nil _ _)

/-- A report has no errors exactly if both checks answer, and with warnings only. -/
theorem errors_reportOf_eq_nil_iff_answers : (reportOf base file l).value.errors = [] ↔
    (∃ structural, (structureOf l.document).answer = .ok structural ∧
        ∀ i ∈ structural, i.severity = .warning) ∧
      ∃ references, (referencesOf file l.document).answer = .ok references ∧
        ∀ i ∈ references, i.severity = .warning := by
  cases hstructure : (structureOf l.document).answer with
  | error fault =>
    rw [reportOf_of_structureOf_error hstructure]
    simp [errors_brokenOff_ne_nil]
  | ok structural =>
    rw [reportOf_of_structureOf hstructure]
    cases hreferences : (referencesOf file l.document).answer with
    | error fault => simp [errors_brokenOff_ne_nil]
    | ok references => simp [errors_addIssues_eq_nil_iff]

end

/-! ## Documents without errors -/

/-- What is asked of a document: it is a valid mapping and describes a project, the check of the
references answers, and it finds no parent that is an enumeration and no chain that comes back. -/
structure Passes (document : Value) : Prop where
  isMap : document.isMap = true
  valid : structureIssues projectSchema document = .ok []
  references : ∃ p issues, (Project.load document).answer = .ok (some p) ∧
    (referenceIssues (Graph.ofProject p)).answer = .ok issues ∧
    ∀ i ∈ issues, (∀ parent owner, i.finding ≠ .parentIsEnumeration parent owner) ∧
      ∀ followed, i.finding ≠ .cyclicInheritance followed

theorem severity_of_mem_structureIssues {schema document : Value} {issues : List Issue}
    (h : structureIssues schema document = .ok issues) : ∀ i ∈ issues, i.severity = .error := by
  by_cases hmap : document.isMap = true
  · intro i hi
    obtain ⟨x, -, rfl⟩ := (mem_iff_of_structureIssues hmap h i).mp hi
    rfl
  · rw [structureIssues, if_neg hmap] at h
    cases h
    rw [List.forall_mem_singleton]
    rfl

theorem answer_structureOf_of_isMap {document : Value} (h : document.isMap = true) :
    (structureOf document).answer = structureIssues projectSchema document >>= fun violations ↦
      (droppedIssues document).answer >>= fun dropped ↦ .ok (violations ++ dropped) := by
  rw [structureOf, h]
  simp only [if_true, Query.answer_bind, Query.answer_ofExcept]
  rfl

/-- What is dropped from a valid document are warnings. -/
theorem severity_of_mem_droppedIssues {document : Value} {issues : List Issue}
    (hvalid : structureIssues projectSchema document = .ok [])
    (h : (droppedIssues document).answer = .ok issues) : ∀ i ∈ issues, i.severity = .warning := by
  have hsettles := settles_droppedIssues (violations_eq_nil_of_structureIssues_eq_nil hvalid)
  rw [h] at hsettles
  have hissues : issues = (Dropped.floatWired document).map Dropped.unsupportedEntity := hsettles
  rw [hissues, List.forall_mem_map]
  exact fun _ _ ↦ rfl

/-- The structure of a document has warnings only exactly if the document is a valid mapping of
which the dropped nodes can be told. -/
theorem structureOf_warnings_iff {document : Value} :
    (∃ structural, (structureOf document).answer = .ok structural ∧
        ∀ i ∈ structural, i.severity = .warning) ↔
      document.isMap = true ∧ structureIssues projectSchema document = .ok [] ∧
        ∃ dropped, (droppedIssues document).answer = .ok dropped := by
  constructor
  · rintro ⟨structural, hstructural, hwarnings⟩
    by_cases hmap : document.isMap = true
    · rw [answer_structureOf_of_isMap hmap] at hstructural
      obtain ⟨issues, hissues, h⟩ := bind_eq_ok_iff.mp hstructural
      obtain ⟨dropped, hdropped, h⟩ := bind_eq_ok_iff.mp h
      cases h
      have hnil : issues = [] := by
        refine List.eq_nil_iff_forall_not_mem.mpr fun i hi ↦ ?_
        have herror := severity_of_mem_structureIssues hissues i hi
        have hwarning := hwarnings i (List.mem_append_left _ hi)
        rw [herror] at hwarning
        cases hwarning
      rw [hnil] at hissues
      exact ⟨hmap, hissues, dropped, hdropped⟩
    · rw [Bool.not_eq_true] at hmap
      rw [structureOf, hmap, structureIssues, hmap] at hstructural
      cases hstructural
      cases hwarnings _ List.mem_cons_self
  · rintro ⟨hmap, hvalid, dropped, hdropped⟩
    refine ⟨dropped, ?_, severity_of_mem_droppedIssues hvalid hdropped⟩
    rw [answer_structureOf_of_isMap hmap, hvalid, hdropped]
    rfl

/-- An entity has a warning where it has neither of the two errors. -/
theorem severity_eq_warning_iff {path : ElementPath} {e : Entity} {i : Issue}
    (h : References.Concerns path e i) : i.severity = .warning ↔
      (∀ parent owner, i.finding ≠ .parentIsEnumeration parent owner) ∧
        ∀ followed, i.finding ≠ .cyclicInheritance followed := by
  have hwarning : i.severity = .warning ↔ ¬ i.severity = .error := by
    cases i.severity <;> simp
  rw [hwarning, h.severity_eq_error_iff]
  simp only [not_or, not_exists, ne_eq]

/-- The references of a valid document have warnings only exactly if the check finds none of the two
errors that it knows. -/
theorem referencesOf_warnings_iff {file : Files.Path} {document : Value}
    (hvalid : structureIssues projectSchema document = .ok []) :
    (∃ references, (referencesOf file document).answer = .ok references ∧
        ∀ i ∈ references, i.severity = .warning) ↔
      ∃ p issues, (Project.load document).answer = .ok (some p) ∧
        (referenceIssues (Graph.ofProject p)).answer = .ok issues ∧
        ∀ i ∈ issues, (∀ parent owner, i.finding ≠ .parentIsEnumeration parent owner) ∧
          ∀ followed, i.finding ≠ .cyclicInheritance followed := by
  have hproject := settles_project (violations_eq_nil_of_structureIssues_eq_nil hvalid) id
  have hreferences {p : Project Entity} (h : (Project.load document).answer = .ok (some p)) :
      (referencesOf file document).answer = (referenceIssues (Graph.ofProject p)).answer := by
    rw [referencesOf, Query.answer_bind, h]
    rfl
  have hwarnings {p : Project Entity} {issues : List Issue}
      (h : (referenceIssues (Graph.ofProject p)).answer = .ok issues) :
      ∀ i ∈ issues, i.severity = .warning ↔
        (∀ parent owner, i.finding ≠ .parentIsEnumeration parent owner) ∧
          ∀ followed, i.finding ≠ .cyclicInheritance followed := by
    intro i hi
    obtain ⟨entry, -, hconcerns⟩ := yields_referenceIssues _ _ h i hi
    exact severity_eq_warning_iff hconcerns
  constructor
  · rintro ⟨references, h, hseverity⟩
    cases hload : (Project.load document).answer with
    | error fault =>
      rw [referencesOf, Query.answer_bind, hload] at h
      cases h
    | ok found =>
      -- A valid document describes a project, so there is something to check.
      rw [hload] at hproject
      obtain ⟨p, rfl⟩ := Option.isSome_iff_exists.mp hproject
      rw [hreferences hload] at h
      exact ⟨p, references, rfl, h, fun i hi ↦ (hwarnings h i hi).mp (hseverity i hi)⟩
  · rintro ⟨p, issues, hload, h, hfindings⟩
    exact ⟨issues, (hreferences hload).trans h, fun i hi ↦ (hwarnings h i hi).mpr (hfindings i hi)⟩

/-- A report has no errors exactly if its document passes and its dropped nodes can be told. -/
theorem errors_reportOf_eq_nil_iff {base : Option Files.Path} {file : Files.Path} {l : Loaded} :
    (reportOf base file l).value.errors = [] ↔
      Passes l.document ∧ ∃ dropped, (droppedIssues l.document).answer = .ok dropped := by
  rw [errors_reportOf_eq_nil_iff_answers, structureOf_warnings_iff]
  constructor
  · rintro ⟨⟨hmap, hvalid, hdropped⟩, hreferences⟩
    exact ⟨⟨hmap, hvalid, (referencesOf_warnings_iff hvalid).mp hreferences⟩, hdropped⟩
  · rintro ⟨⟨hmap, hvalid, hreferences⟩, hdropped⟩
    exact ⟨⟨hmap, hvalid, hdropped⟩, (referencesOf_warnings_iff hvalid).mpr hreferences⟩

/-! ## Files and runs -/

/-- What is loaded from a file for linting. -/
def loadFile (t : Files.Tree) (file : Files.Path) : Except LoadError Loaded :=
  (Reader.load { caching := false } t file).value.1

/-- The report of a file, if its error is one that is reported. -/
def reportFile (words : Yaml.Wording) (base : Option Files.Path) (t : Files.Tree)
    (file : Files.Path) : Report :=
  match loadFile t file with
  | .ok l => (reportOf base file l).value
  | .error e => ({ file } : Report).addError { message := e.message words }

section

variable {words : Yaml.Wording} {base : Option Files.Path} {t : Files.Tree}

theorem lintFile_eq_reportFile {file : Files.Path}
    (h : ∀ e, loadFile t file = .error e → e.isReported = true) :
    (lintFile words base t file).run.value = .ok (reportFile words base t file) := by
  change (Logged.value (Reader.load { caching := false } t file >>= _)) = _
  rw [Logged.bind_value, reportFile]
  have hload : (Reader.load { caching := false } t file).value.1 = loadFile t file := rfl
  rw [hload]
  cases hl : loadFile t file with
  | ok l => rfl
  | error e =>
    simp only [h e hl, if_true]
    rfl

/-- A batch has reports exactly if each of its files has one, and they are these. -/
theorem lintFiles_eq_ok_iff {files : List Files.Path} {reports : List Report} :
    (lintFiles words base t files).run.value = .ok reports ↔
      List.Forall₂ (fun file r ↦ (lintFile words base t file).run.value = .ok r) files reports := by
  -- The reports so far are carried backwards.
  have hloop (done : List Report) :
      (List.mapM.loop (lintFile words base t) files done).run.value = .ok reports ↔
        ∃ later, reports = done.reverse ++ later ∧
          List.Forall₂ (fun file r ↦ (lintFile words base t file).run.value = .ok r) files
            later := by
    induction files generalizing done with
    | nil =>
      constructor
      · intro h
        cases h
        exact ⟨[], (List.append_nil _).symm, .nil⟩
      · rintro ⟨later, rfl, hlater⟩
        cases hlater
        rw [List.append_nil]
        rfl
    | cons file files ih =>
      rw [List.mapM.loop]
      change (ExceptT.bindCont (fun r ↦ List.mapM.loop (lintFile words base t) files (r :: done))
        (lintFile words base t file).run.value).value = _ ↔ _
      cases hfile : (lintFile words base t file).run.value with
      | error e =>
        constructor
        · intro h
          cases h
        · rintro ⟨later, -, hlater⟩
          cases hlater with
          | cons hfirst _ => cases hfile.symm.trans hfirst
      | ok r =>
        refine (ih (r :: done)).trans ⟨?_, ?_⟩
        · rintro ⟨later, rfl, hlater⟩
          refine ⟨r :: later, ?_, .cons hfile hlater⟩
          rw [List.reverse_cons, List.append_assoc]
          rfl
        · rintro ⟨later, rfl, hlater⟩
          cases hlater with
          | @cons _ r' _ later hfirst hlater =>
            cases hfile.symm.trans hfirst
            refine ⟨later, ?_, hlater⟩
            rw [List.reverse_cons, List.append_assoc]
            rfl
  refine (hloop []).trans ⟨?_, fun h ↦ ⟨reports, rfl, h⟩⟩
  rintro ⟨later, rfl, hlater⟩
  exact hlater

/-- The reports of files whose errors are reported, one after the other. -/
theorem lintFiles_eq_map {files : List Files.Path}
    (h : ∀ file ∈ files, ∀ e, loadFile t file = .error e → e.isReported = true) :
    (lintFiles words base t files).run.value = .ok (files.map (reportFile words base t)) := by
  rw [lintFiles_eq_ok_iff, List.forall₂_map_right_iff, List.forall₂_same]
  exact fun file hfile ↦ lintFile_eq_reportFile (h file hfile)

end

end Lint

/-- A name of a level stands for that level, whatever its case. -/
theorem Log.Named.ofText_of_ofName? {t : Text} {s : String} {level default : Log.Level}
    (hcapitals : t.capitals.toString? = some s) (h : Log.Level.ofName? s = some level) :
    Log.Named.ofText t default = .level level := by
  have hne : s ≠ layoutName := by
    rintro rfl
    cases h
  rw [ofText, hcapitals]
  simp [hne, h]

/-- Whether both levels of the log are named by what stands for a level. -/
def Configuration.NamesLevels (c : Configuration) : Prop :=
  (∃ least, Log.Named.ofText c.logLevel .info = .level least) ∧
    ∃ grave, Log.Named.ofText c.printLevel .error = .level grave

namespace Lint

theorem total_eq_zero_iff {part : Report → List Entry} {rs : List Report} :
    total part rs = 0 ↔ ∀ r ∈ rs, part r = [] := by
  rw [total, List.length_eq_zero_iff, List.flatMap_eq_nil_iff]

/-- A file passes if its document does and the dropped nodes of it can be told. -/
def FilePasses (t : Files.Tree) (file : Files.Path) : Prop :=
  ∃ l, loadFile t file = .ok l ∧ Passes l.document ∧
    ∃ dropped, (droppedIssues l.document).answer = .ok dropped

theorem errors_reportFile_eq_nil_iff {words : Yaml.Wording} {base : Option Files.Path}
    {t : Files.Tree} {file : Files.Path} :
    (reportFile words base t file).errors = [] ↔ FilePasses t file := by
  rw [reportFile, FilePasses]
  cases h : loadFile t file with
  | ok l => simp [errors_reportOf_eq_nil_iff]
  | error e => simp [Report.addError]

/-- What a status says about whether something was passed: it is zero if so, and else one. -/
def Tells (status : Except RunError Nat) (passed : Prop) : Prop :=
  status = .ok 0 ∧ passed ∨ status = .ok 1 ∧ ¬ passed

/-- How a run ends that has something to print: its status tells whether something was passed if all
of it can be printed, and otherwise printing breaks the run off. -/
def EndsWith (status : Except RunError Nat) (printable passed : Prop) : Prop :=
  (printable → Tells status passed) ∧ (¬ printable → ∃ e, status = .error (.encoding e))

section

variable {enc : Text.Encoding} {words : Yaml.Wording} {c : Configuration} {routing : Log.Routing}
  {t : Files.Tree} {o : Options} {files : List Files.Path}

/-- Linting documents ends with a status that tells whether all of them pass, unless their reports
cannot be printed. -/
theorem endsWith_runDocuments
    (h : ∀ file ∈ files, ∀ e, loadFile t file = .error e → e.isReported = true) :
    EndsWith (runDocuments enc words c routing t o files).status
      (o.IsPrintable enc (files.map (reportFile words c.base t)))
      (∀ file ∈ files, FilePasses t file) := by
  have hpasses : total Report.errors (files.map (reportFile words c.base t)) = 0 ↔
      ∀ file ∈ files, FilePasses t file := by
    simp only [total_eq_zero_iff, List.forall_mem_map, errors_reportFile_eq_nil_iff]
  rw [← hpasses, ← forall_accepts_lines_iff, runDocuments]
  simp only [lintFiles_eq_map h]
  split
  next e hsome =>
    obtain ⟨line, hline, hrefused⟩ := List.exists_of_findSome?_eq_some hsome
    have hnot : ¬ ∀ line ∈ o.lines (files.map (reportFile words c.base t)),
        enc.accepts line = true := by
      intro haccepts
      have hnone := Text.Encoding.refusal?_eq_none_iff.mpr (haccepts line hline)
      cases hrefused.symm.trans hnone
    exact ⟨fun haccepts ↦ absurd haccepts hnot, fun _ ↦ ⟨e, rfl⟩⟩
  next hnone =>
    have haccepts : ∀ line ∈ o.lines (files.map (reportFile words c.base t)),
        enc.accepts line = true :=
      fun line hline ↦ Text.Encoding.refusal?_eq_none_iff.mp
        (List.findSome?_eq_none_iff.mp hnone line hline)
    refine ⟨fun _ ↦ ?_, fun hnot ↦ absurd haccepts hnot⟩
    split
    next hpos => exact .inr ⟨rfl, Nat.ne_of_gt hpos⟩
    next hpos => exact .inl ⟨rfl, Nat.eq_zero_of_not_pos hpos⟩

/-- A search ends with a status that tells whether documents were found and all of them pass, unless
their reports cannot be printed. -/
theorem endsWith_runSearch (hfound : (t.projectDocuments o.searched).documents = .ok files)
    (h : ∀ file ∈ files, ∀ e, loadFile t file = .error e → e.isReported = true) :
    EndsWith (runSearch enc words c routing t o).status
      (o.IsPrintable enc (files.map (reportFile words c.base t)))
      (files ≠ [] ∧ ∀ file ∈ files, FilePasses t file) := by
  rw [runSearch]
  simp only [hfound]
  cases files with
  | nil =>
    refine ⟨fun _ ↦ .inr ⟨rfl, fun hpassed ↦ hpassed.1 rfl⟩, fun hnot ↦ ?_⟩
    exact absurd (.inr fun _ hr ↦ absurd hr List.not_mem_nil) hnot
  | cons file files =>
    rw [and_iff_right (List.cons_ne_nil file files)]
    exact endsWith_runDocuments h

/-- With the names of levels there is a routing of the records, whether more of them are asked for
or not. -/
theorem exists_routing (o : Options) (h : c.NamesLevels) :
    ∃ routing, (if o.verbose then { c with logLevel := "DEBUG" } else c).routing = .ok routing := by
  obtain ⟨⟨least, hleast⟩, grave, hgrave⟩ := h
  split
  · have hdebug : Log.Named.ofText "DEBUG" .info = .level Log.Level.debug :=
      Log.Named.ofText_of_ofName? rfl rfl
    exact ⟨.ofLevels Log.Level.debug grave, by simp only [Configuration.routing, hdebug, hgrave]⟩
  · exact ⟨.ofLevels least grave, by simp only [Configuration.routing, hleast, hgrave]⟩

/-- A run that lints is a search, with some routing of the records. -/
theorem exists_run_eq_runSearch (enc : Text.Encoding) (words : Yaml.Wording) (t : Files.Tree)
    {arguments : List Text} (harguments : readOptions arguments = .ok (.lint o))
    (hlevels : c.NamesLevels) :
    ∃ c' routing, c'.base = c.base ∧
      run enc words c t arguments = runSearch enc words c' routing t o := by
  obtain ⟨routing, hrouting⟩ := exists_routing o hlevels
  rw [run, harguments]
  simp only [runOptions, hrouting]
  refine ⟨_, routing, ?_, rfl⟩
  split <;> rfl

theorem endsWith_run {arguments : List Text}
    (harguments : readOptions arguments = .ok (.lint o)) (hlevels : c.NamesLevels)
    (hfound : (t.projectDocuments o.searched).documents = .ok files)
    (h : ∀ file ∈ files, ∀ e, loadFile t file = .error e → e.isReported = true) :
    EndsWith (run enc words c t arguments).status
      (o.IsPrintable enc (files.map (reportFile words c.base t)))
      (files ≠ [] ∧ ∀ file ∈ files, FilePasses t file) := by
  obtain ⟨c', routing, hbase, hrun⟩ := exists_run_eq_runSearch enc words t harguments hlevels
  rw [hrun, ← hbase]
  exact endsWith_runSearch hfound h

end

/-- Two statuses that tell the same are the same. -/
theorem Tells.eq {s s' : Except RunError Nat} {passed : Prop} (h : Tells s passed)
    (h' : Tells s' passed) : s = s' := by
  rcases h with ⟨hs, hpassed⟩ | ⟨hs, hpassed⟩ <;> rcases h' with ⟨hs', hpassed'⟩ | ⟨hs', hpassed'⟩
  · exact hs.trans hs'.symm
  · exact absurd hpassed hpassed'
  · exact absurd hpassed' hpassed
  · exact hs.trans hs'.symm

/-- A document that describes no project does not pass. -/
theorem not_filePasses_of_load_eq_none {t : Files.Tree} {file : Files.Path} {l : Loaded}
    (hload : loadFile t file = .ok l) (h : (Project.load l.document).answer = .ok none) :
    ¬ FilePasses t file := by
  rintro ⟨l', hload', hpasses, -⟩
  cases hload.symm.trans hload'
  obtain ⟨p, issues, hp, -⟩ := hpasses.references
  rw [h] at hp
  cases hp

/-- Nothing else is asked of the errors of a single file that is loaded. -/
theorem forall_isReported_of_loadFile {t : Files.Tree} {file : Files.Path} {l : Loaded}
    (hload : loadFile t file = .ok l) :
    ∀ f ∈ [file], ∀ e, loadFile t f = .error e → e.isReported = true := by
  refine List.forall_mem_singleton.mpr fun e he ↦ ?_
  cases hload.symm.trans he

theorem namesLevels_default : ({} : Configuration).NamesLevels :=
  ⟨⟨_, Log.Named.ofText_of_ofName? rfl rfl⟩, _, Log.Named.ofText_of_ofName? rfl rfl⟩

/-! ## A module that is named by a number -/

section

variable {bytes : List UInt8}

/-- A document whose only module is named by a number passes, whatever the number. -/
theorem passes_numberedDocument (n : Int) : Passes (Dropped.numberedDocument n) where
  isMap := rfl
  valid := Dropped.structureIssues_numberedDocument n
  references := by
    obtain ⟨p, hload, hmodules⟩ := Dropped.exists_load_numberedDocument n
    have hnone : p.flatEntities = [] := by
      rw [Project.flatEntities, hmodules]
      rfl
    have hentities : (Graph.ofProject p).project.flatEntities = [] :=
      List.map_eq_nil_iff.mp ((Graph.flatEntities_ofProject p).trans hnone)
    refine ⟨p, [], hload, ?_, fun _ h ↦ absurd h List.not_mem_nil⟩
    rw [referenceIssues, hentities]
    rfl

/-- The dropped nodes of a valid document can be told if its keys have texts. -/
theorem exists_droppedIssues_of_keysWritable {document : Value}
    (hvalid : structureIssues projectSchema document = .ok [])
    (hkeys : document.keysWritable = true) :
    ∃ dropped, (droppedIssues document).answer = .ok dropped := by
  obtain ⟨dropped, h, -⟩ := (settles_droppedIssues
    (violations_eq_nil_of_structureIssues_eq_nil hvalid)).exists_answer hkeys
  exact ⟨dropped, h⟩

/-- The number that names the module of such a document. -/
def moduleNumber? : Value → Option Int
  | .map [(.str modules, .map [(.int n, .map [(.str entities, .map [])])])] =>
    if modules = "modules" ∧ entities = "entities" then some n else none
  | _ => none

theorem eq_numberedDocument_of_moduleNumber? {v : Value} {n : Int} (h : moduleNumber? v = some n) :
    v = Dropped.numberedDocument n := by
  unfold moduleNumber? at h
  split at h
  next modules n' entities =>
    obtain ⟨⟨rfl, rfl⟩, hnumber⟩ := Option.ite_none_right_eq_some.mp h
    cases hnumber
    rfl
  next => cases h

/-- The file of such a document, with the digits of its number. -/
def numberedBytes (digits : List Char) : List UInt8 :=
  ("modules: \x7b? ".toList ++ digits ++ " : \x7bentities: \x7b\x7d\x7d\x7d".toList).map fun c ↦
    .ofNat c.toNat

/-- The tree of one file. -/
def treeOf (bytes : List UInt8) : Files.Tree :=
  { top := .directory [("a.yaml", .file bytes)] }

theorem documents_treeOf :
    ((treeOf bytes).projectDocuments [.ofText "a.yaml"]).documents = .ok [.ofText "a.yaml"] := by
  have hfind : (treeOf bytes).find (.ofText "a.yaml") = .ok (some (.file bytes)) := rfl
  have hsuffix : (Files.Path.ofText "a.yaml").suffix ∈ Files.documentSuffixes := by decide
  have hsearch : (treeOf bytes).search (.ofText "a.yaml") = .ok (.ok [.ofText "a.yaml"]) := by
    simp [Files.Tree.search, hfind, bind, Except.bind, pure, Except.pure, hsuffix]
  simp [Files.Tree.projectDocuments, Files.Tree.searchAll, hsearch, Except.map,
    List.eraseDups_cons]

/-- A file that is found and may be read is loaded as its bytes. -/
theorem loadFile_of_find {t : Files.Tree} {p : Files.Path}
    (hfind : t.find p = .ok (some (.file bytes))) (hreadable : t.isReadable p = true) :
    loadFile t p = Loaded.ofBytes p bytes := by
  rw [loadFile, Reader.load, hfind, ← Loaded.ofFile_of_isReadable hreadable]
  cases h : Loaded.ofFile t p bytes with
  | ok l => simp [Reader.kept?, h]
  | error e => simp [Reader.kept?, h]

theorem loadFile_treeOf :
    loadFile (treeOf bytes) (.ofText "a.yaml") = Loaded.ofBytes (.ofText "a.yaml") bytes :=
  loadFile_of_find rfl rfl

/-- The document of that file, if the file holds one with such a number. -/
theorem exists_loadFile_treeOf {p : Int → Bool}
    (h : Loaded.isTextOf (fun v ↦ (moduleNumber? v).any p) bytes = true) :
    ∃ n sourceMap, p n = true ∧
      loadFile (treeOf bytes) (.ofText "a.yaml") = .ok ⟨Dropped.numberedDocument n, sourceMap⟩ := by
  obtain ⟨⟨v, sourceMap⟩, hload, htest⟩ := Loaded.exists_ofBytes_of_isTextOf h (.ofText "a.yaml")
  obtain ⟨n, hnumber, hp⟩ := (Option.any_eq_true _ _).mp htest
  cases eq_numberedDocument_of_moduleNumber? hnumber
  exact ⟨n, sourceMap, hp, loadFile_treeOf.trans hload⟩

end

end Lint

/-- Where something is found is told with the pointer to it. -/
theorem Source.Location.mem_text_of_mem_pointer {base : Option Files.Path} {l : Location}
    {pointer : Text} (hpointer : l.pointer = some pointer) {x : CodePoint} (hx : x ∈ pointer)
    (hblank : x ∉ (" " : Text)) : x ∈ l.text base := by
  obtain ⟨y, rest, rfl⟩ := List.exists_cons_of_ne_nil (List.ne_nil_of_mem hx)
  have hjoined {parts : List Text} (hpart : "yaml_path=" ++ y :: rest ∈ parts) :
      x ∈ (if parts.isEmpty then [] else " (" ++ Text.joined " " parts ++ ")" : Text) := by
    rw [if_neg (mt List.isEmpty_iff.mp (List.ne_nil_of_mem hpart))]
    refine List.mem_append_left _ (List.mem_append_right _ ((mem_intercalate hblank).mpr ?_))
    exact ⟨_, hpart, List.mem_append_right _ hx⟩
  rw [text, hpointer]
  exact hjoined (List.mem_append_right _ List.mem_cons_self)

namespace Lint

/-! ## An entity that cannot be printed -/

/-- The name of the entity of such a document, if it is one. -/
def floatWiredName? : Value → Option Text
  | .map [(.str modules, .map [(.str m, .map [(.str entities, .map [(.str name,
      .map [(.str type, .float x), (.str flag, .bool b), (.str fields, .map []),
        (.str generics, .map [])])])])])] =>
    if modules = "modules" ∧ m = "m" ∧ entities = "entities" ∧ type = "type" ∧
        x = Binary64.ofInt 1 ∧ flag = "isAbstract" ∧ b = false ∧ fields = "fieldsLocal" ∧
        generics = "genericMap" then some name else none
  | _ => none

theorem eq_floatWiredUnder_of_floatWiredName? {v : Value} {name : Text}
    (h : floatWiredName? v = some name) : v = Dropped.floatWiredUnder (.str name) := by
  unfold floatWiredName? at h
  split at h
  next =>
    obtain ⟨⟨rfl, rfl, rfl, rfl, hx, rfl, rfl, rfl, rfl⟩, hname⟩ :=
      Option.ite_none_right_eq_some.mp h
    cases hname
    rw [hx]
    rfl
  next => cases h

/-- A document that leaves out its only entity, which is called by a half of a pair. -/
def halfNamedDocument : Value := Dropped.floatWiredUnder (.str [.half 0])

theorem passes_halfNamedDocument : Passes halfNamedDocument where
  isMap := rfl
  valid := Dropped.structureIssues_floatWiredUnder _
  references := by
    have hload : (Project.load halfNamedDocument).answer =
        .ok (some { modules := [(.str "m", {})] }) := rfl
    exact ⟨_, [], hload, rfl, fun _ h ↦ absurd h List.not_mem_nil⟩

theorem droppedIssues_halfNamedDocument :
    (droppedIssues halfNamedDocument).answer =
      .ok [Dropped.unsupportedEntity ⟨.str "m", .str [.half 0]⟩] := rfl

/-- A report on that document names the entity. -/
theorem not_isPrintable_reportOf_halfNamedDocument (base : Option Files.Path) (file : Files.Path)
    (m : Source.Map) :
    ¬ (reportOf base file ⟨halfNamedDocument, m⟩).value.IsPrintable .utf8 := by
  have hstructure : (structureOf halfNamedDocument).answer =
      .ok [Dropped.unsupportedEntity ⟨.str "m", .str [.half 0]⟩] := by
    rw [answer_structureOf_of_isMap rfl, passes_halfNamedDocument.valid,
      droppedIssues_halfNamedDocument]
    rfl
  have hreferences : (referencesOf file halfNamedDocument).answer = .ok [] := rfl
  have hreport := @reportOf_of_structureOf base file ⟨halfNamedDocument, m⟩ _ hstructure
  simp only [hreferences] at hreport
  intro hprintable
  rw [hreport] at hprintable
  obtain ⟨-, hmessage⟩ := hprintable _ (List.mem_append_right _ List.mem_cons_self)
  have hpointer : .half 0 ∈ References.entityPointer ⟨.str "m", .str [.half 0]⟩ := by decide
  have hhalf := List.all_eq_true.mp hmessage (.half 0) (List.mem_append_right _
    (Source.Location.mem_text_of_mem_pointer rfl hpointer (by decide)))
  cases hhalf

/-- The file of an entity that is left out, under a half of a pair. -/
def halfNameBytes : List UInt8 :=
  ("modules: \x7bm: \x7bentities: \x7b\"\\ud800\": \x7btype: 1.0, isAbstract: false, " ++
    "fieldsLocal: \x7b\x7d, genericMap: \x7b\x7d\x7d\x7d\x7d\x7d").toList.map fun c ↦ .ofNat c.toNat

set_option maxRecDepth 10000 in
theorem isTextOf_halfNameBytes :
    Loaded.isTextOf (fun v ↦ (floatWiredName? v).any (· == [.half 0])) halfNameBytes = true := by
  decide +kernel

theorem exists_loadFile_halfNameBytes : ∃ sourceMap,
    loadFile (treeOf halfNameBytes) (.ofText "a.yaml") = .ok ⟨halfNamedDocument, sourceMap⟩ := by
  obtain ⟨⟨v, sourceMap⟩, hread, htest⟩ :=
    Loaded.exists_ofBytes_of_isTextOf isTextOf_halfNameBytes (.ofText "a.yaml")
  obtain ⟨name, hname, hhalf⟩ := (Option.any_eq_true _ _).mp htest
  cases eq_of_beq hhalf
  have hdocument : v = halfNamedDocument := eq_floatWiredUnder_of_floatWiredName? hname
  rw [hdocument] at hread
  exact ⟨sourceMap, loadFile_treeOf.trans hread⟩

theorem readOptions_json : readOptions ["--format", "json", "a.yaml"] =
    .ok (.lint { format := some .json, paths := ["a.yaml"] }) := by
  have hwords : classifyAll ["--format", "json", "a.yaml"] =
      .ok [(.option .format true none, "--format"), (.argument, "json"), (.argument, "a.yaml")] :=
    rfl
  have hread : readWords {} [(.option .format true none, "--format"), (.argument, "json"),
      (.argument, "a.yaml")] =
      .ok (some { options := { format := some .json, paths := ["a.yaml"] }, run := .inside }) := by
    have hoption : applyOption ({} : OptionState).endRun .format true none =
        .ok (.needsArgument {}) := rfl
    have hformat : ({} : OptionState).setFormat "json" =
        .ok { options := { format := some .json } } := rfl
    simp only [readWords, hoption, hformat, bind, Except.bind]
    rfl
  rw [readOptions, hwords]
  simp only [bind, Except.bind, hread]
  rfl

/-! ## The exit status -/

/-- The exit status of a run that lints, with levels of the log that can be set. Without a search
that ends there is none. Otherwise, as long as every found file is loaded or is reported not to be,
there is one exactly if the reports can be printed as asked for: as JSON they always can, and in the
other two formats if the encoding has all that is said. The status is then zero if files were found
and all of them pass, and else one. So a run with a file that describes no project never ends with
zero, and two command lines with the same paths whose reports can be printed end alike. -/
theorem status_run (enc : Text.Encoding) (words : Yaml.Wording) (c : Configuration)
    (t : Files.Tree) {arguments : List Text} {o : Options}
    (harguments : readOptions arguments = .ok (.lint o)) (hlevels : c.NamesLevels) :
    (∀ e, (t.projectDocuments o.searched).documents = .error e →
      (run enc words c t arguments).status = .error (.load (.noAccess e))) ∧
    ∀ files, (t.projectDocuments o.searched).documents = .ok files →
      (∀ file ∈ files, ∀ e, loadFile t file = .error e → e.isReported = true) →
      let reports := files.map (reportFile words c.base t)
      let status := (run enc words c t arguments).status
      (o.IsPrintable enc reports →
        Tells status (files ≠ [] ∧ ∀ file ∈ files, FilePasses t file)) ∧
      (¬ o.IsPrintable enc reports → ∃ e, status = .error (.encoding e)) ∧
      (∀ file ∈ files, ∀ l, loadFile t file = .ok l → (Project.load l.document).answer = .ok none →
        status ≠ .ok 0) ∧
      ∀ arguments' o', readOptions arguments' = .ok (.lint o') → o'.searched = o.searched →
        o.IsPrintable enc reports → o'.IsPrintable enc reports →
        (run enc words c t arguments').status = status := by
  refine ⟨fun e he ↦ ?_, fun files hfound h ↦ ?_⟩
  · obtain ⟨c', routing, -, hrun⟩ := exists_run_eq_runSearch enc words t harguments hlevels
    rw [hrun, runSearch]
    simp only [he]
  · intro reports status
    obtain ⟨htells, hbroken⟩ : EndsWith status (o.IsPrintable enc reports) _ :=
      endsWith_run harguments hlevels hfound h
    refine ⟨htells, hbroken, fun file hfile l hload hnone hstatus ↦ ?_,
      fun arguments' o' harguments' hsearched hprintable hprintable' ↦ ?_⟩
    · by_cases hprintable : o.IsPrintable enc reports
      · rcases htells hprintable with ⟨-, -, hpass⟩ | ⟨hone, -⟩
        · exact not_filePasses_of_load_eq_none hload hnone (hpass file hfile)
        · cases hone.symm.trans hstatus
      · obtain ⟨e, he⟩ := hbroken hprintable
        cases he.symm.trans hstatus
    · rw [← hsearched] at hfound
      exact ((endsWith_run harguments' hlevels hfound h).1 hprintable').eq (htells hprintable)

/-- That file passes. As JSON it is linted to the end, and the status is zero; for people the run is
broken off. -/
theorem status_run_halfNameBytes :
    readOptions ["a.yaml"] = .ok (.lint { paths := ["a.yaml"] }) ∧
      readOptions ["--format", "json", "a.yaml"] =
        .ok (.lint { format := some .json, paths := ["a.yaml"] }) ∧
      ({} : Configuration).NamesLevels ∧
      ((treeOf halfNameBytes).projectDocuments [.ofText "a.yaml"]).documents =
        .ok [.ofText "a.yaml"] ∧
      ∀ words, (∃ e, (run .utf8 words {} (treeOf halfNameBytes) ["a.yaml"]).status =
          .error (.encoding e)) ∧
        (run .utf8 words {} (treeOf halfNameBytes) ["--format", "json", "a.yaml"]).status =
          .ok 0 := by
  have hhuman : readOptions ["a.yaml"] = .ok (.lint { paths := ["a.yaml"] }) := rfl
  have hjson := readOptions_json
  refine ⟨hhuman, hjson, namesLevels_default, documents_treeOf, fun words ↦ ?_⟩
  obtain ⟨sourceMap, hload⟩ := exists_loadFile_halfNameBytes
  have hreported := forall_isReported_of_loadFile hload
  have hreport : reportFile words none (treeOf halfNameBytes) (.ofText "a.yaml") =
      (reportOf none (.ofText "a.yaml") ⟨halfNamedDocument, sourceMap⟩).value := by
    rw [reportFile, hload]
  constructor
  · obtain ⟨-, hbroken, -⟩ := (status_run .utf8 words {} (treeOf halfNameBytes) hhuman
      namesLevels_default).2 _ documents_treeOf hreported
    refine hbroken ?_
    rintro (hformat | hprintable)
    · cases hformat
    · have hreport' := hprintable _ (List.mem_map.mpr ⟨_, List.mem_cons_self, hreport⟩)
      exact not_isPrintable_reportOf_halfNamedDocument _ _ _ hreport'
  · obtain ⟨htells, -⟩ := (status_run .utf8 words {} (treeOf halfNameBytes) hjson
      namesLevels_default).2 _ documents_treeOf hreported
    have hpass : FilePasses (treeOf halfNameBytes) (.ofText "a.yaml") :=
      ⟨_, hload, passes_halfNamedDocument, _, droppedIssues_halfNamedDocument⟩
    obtain ⟨hstatus, -⟩ | ⟨-, hfails⟩ := htells (.inl rfl)
    · exact hstatus
    · exact absurd ⟨List.cons_ne_nil _ _, List.forall_mem_singleton.mpr hpass⟩ hfails

/-- The same file with a number of more digits than can be written. -/
def longNumberBytes : List UInt8 := numberedBytes ('0' :: 'x' :: List.replicate 3572 'F')

set_option maxRecDepth 100000 in
theorem isTextOf_longNumberBytes :
    Loaded.isTextOf (fun v ↦ (moduleNumber? v).any fun n ↦ !Integer.isWritable n)
      longNumberBytes = true := by
  decide +kernel

/-- What is dropped from a document with such a number cannot be told, so that the check of its
structure breaks off. -/
theorem structureOf_numberedDocument {n : Int} (hn : Integer.isWritable n = false) :
    (structureOf (Dropped.numberedDocument n)).answer = .error .numberTooLong := by
  rw [answer_structureOf_of_isMap rfl, Dropped.structureIssues_numberedDocument,
    Dropped.answer_droppedIssues_numberedDocument hn]
  rfl

/-- And a report on it says nothing else. -/
theorem isPrintable_reportOf_numberedDocument {enc : Text.Encoding} {n : Int}
    (hn : Integer.isWritable n = false) (base : Option Files.Path) {file : Files.Path}
    (hfile : enc.accepts file.text = true) (m : Source.Map) :
    (reportOf base file ⟨Dropped.numberedDocument n, m⟩).value.IsPrintable enc := by
  have hstart : enc.accepts "Unexpected error during linting: " = true :=
    Text.Encoding.accepts_ofString (by decide)
  have hfault : enc.accepts (Fault.message .numberTooLong) = true := by
    rw [Fault.message, Text.Encoding.accepts_append, Text.Encoding.accepts_ofString (by decide),
      Text.Encoding.accepts_ofString (by decide)]
    rfl
  have hreport := @reportOf_of_structureOf_error base file ⟨Dropped.numberedDocument n, m⟩ _
    (structureOf_numberedDocument hn)
  simp only [hreport]
  refine List.forall_mem_singleton.mpr ⟨hfile, ?_⟩
  rw [Text.Encoding.accepts_append, hstart, hfault]
  rfl

/-- The document of that file passes, and yet linting it ends with one. -/
theorem status_run_longNumberBytes :
    readOptions ["a.yaml"] = .ok (.lint { paths := ["a.yaml"] }) ∧
      ((treeOf longNumberBytes).projectDocuments [.ofText "a.yaml"]).documents =
        .ok [.ofText "a.yaml"] ∧
      (∃ l, loadFile (treeOf longNumberBytes) (.ofText "a.yaml") = .ok l ∧ Passes l.document) ∧
      ∀ enc words, (run enc words {} (treeOf longNumberBytes) ["a.yaml"]).status = .ok 1 := by
  have harguments : readOptions ["a.yaml"] = .ok (.lint { paths := ["a.yaml"] }) := rfl
  obtain ⟨n, sourceMap, hn, hload⟩ := exists_loadFile_treeOf isTextOf_longNumberBytes
  rw [Bool.not_eq_true'] at hn
  refine ⟨harguments, documents_treeOf, ⟨_, hload, passes_numberedDocument n⟩, fun enc words ↦ ?_⟩
  have hfails : ¬ FilePasses (treeOf longNumberBytes) (.ofText "a.yaml") := by
    rintro ⟨l, hl, -, dropped, htold⟩
    cases hload.symm.trans hl
    cases (Dropped.answer_droppedIssues_numberedDocument hn).symm.trans htold
  have hprintable :
      (reportFile words none (treeOf longNumberBytes) (.ofText "a.yaml")).IsPrintable enc := by
    have hfile : (Files.Path.ofText "a.yaml").text = ("a.yaml" : Text) := by decide
    have hname : enc.accepts (Files.Path.ofText "a.yaml").text = true := by
      rw [hfile]
      exact Text.Encoding.accepts_ofString (by decide)
    rw [reportFile, hload]
    exact isPrintable_reportOf_numberedDocument hn none hname sourceMap
  obtain ⟨htells, -⟩ := @endsWith_run enc words {} _ _ _ _ harguments namesLevels_default
    documents_treeOf (forall_isReported_of_loadFile hload)
  obtain ⟨-, -, hpass⟩ | ⟨hstatus, -⟩ := htells (.inr (List.forall_mem_singleton.mpr hprintable))
  · exact absurd (List.forall_mem_singleton.mp hpass) hfails
  · exact hstatus

end Lint

end EntityGraph
