import EntityGraph.Proofs.Check.Lines
import EntityGraph.Proofs.Documents.Failures
import EntityGraph.Proofs.Lint.Batches

/-!
# Annotations, one to a line

Annotations are read line by line, so that one stands for what was recorded only if no text in it
breaks the line. What breaks a line can only come from the names in a document, which messages and
pointers take over as they stand; where these are on lines, the output read back at its line breaks
is the annotations of all entries, each of which says of itself whether it is an error or a warning
and which file it is about. Only a flaw of a text is told in words that are not of this library, and
so it is asked of them that they use one line. An entry that cannot be printed ends the output.
-/

namespace EntityGraph

/-! ## Reading lines back -/

namespace Text

variable {α : Type} [DecidableEq α] {mark : α}

theorem partsBetween_eq_splitOn (xs : List α) : partsBetween mark xs = xs.splitOn mark := by
  induction xs with
  | nil => rw [partsBetween, List.splitOn_nil]
  | cons x xs ih =>
    obtain ⟨part, parts, hparts⟩ := List.exists_cons_of_ne_nil (List.splitOn_ne_nil mark xs)
    rw [partsBetween, List.splitOn_cons_eq_if_modifyHead, ih, hparts, List.modifyHead_cons]
    simp only [beq_iff_eq]

/-- The first part ends at the first mark. -/
theorem partsBetween_append_cons {part : List α} (h : mark ∉ part) (rest : List α) :
    partsBetween mark (part ++ mark :: rest) = part :: partsBetween mark rest := by
  rw [partsBetween_eq_splitOn, List.splitOn_append_cons_self_of_not_mem h, partsBetween_eq_splitOn]

/-- Lines that were written one after the other are read back at the line breaks. -/
theorem partsBetween_lines {lines : List Text} (h : ∀ line ∈ lines, line.IsLine) :
    partsBetween (.char '\n') (lines.flatMap fun line ↦ (line ++ "\n" : Text)) = lines ++ [[]] := by
  induction lines with
  | nil => rfl
  | cons line lines ih =>
    obtain ⟨hline, hrest⟩ := List.forall_mem_cons.mp h
    rw [List.flatMap_cons, List.append_assoc]
    exact (partsBetween_append_cons hline _).trans (congrArg (line :: ·) (ih hrest))

end Text

theorem Log.Written.concat_lines (lines : List Text) : concat (lines.map (.line .out)) =
    { out := lines.flatMap fun line ↦ (line ++ "\n" : Text) } := by
  -- What was written before stays in front.
  have hloop (written : Log.Written) : (lines.map (line .out)).foldl append written =
      { written with out := written.out ++ lines.flatMap fun line ↦ (line ++ "\n" : Text) } := by
    induction lines generalizing written with
    | nil => simp
    | cons line lines ih =>
      rw [List.map_cons, List.foldl_cons, ih]
      simp [append, Log.Written.line, text]
  exact hloop {}

/-! ## Locations -/

theorem Files.Path.isLine_text_iff {p : Files.Path} :
    p.text.IsLine ↔ ∀ part ∈ p.parts, part.IsLine := by
  have hroot : p.root.text.IsLine := by cases p.root <;> decide
  have hbody : (p.root.text ++ Text.joined "/" p.parts).IsLine ↔ ∀ part ∈ p.parts, part.IsLine := by
    rw [Text.isLine_append, Text.isLine_joined_iff (by decide)]
    exact and_iff_right hroot
  rw [← hbody, text]
  split
  next hempty =>
    rw [List.isEmpty_iff.mp hempty]
    exact iff_of_true (by decide) Text.isLine_nil
  next => rfl

namespace Source.Location

variable {base : Option Files.Path} {file : Files.Path} (h : file.text.IsLine)

include h

/-- A file that is told from a directory on is told by some of its own names. -/
theorem isLine_shownFile : (shownFile base file).IsLine := by
  rw [shownFile]
  cases hshown : base.bind file.relativeTo? with
  | none => exact h
  | some shown =>
    obtain ⟨directory, -, hrelative⟩ := Option.bind_eq_some_iff.mp hshown
    rw [Files.Path.relativeTo?] at hrelative
    split at hrelative
    next =>
      cases hrelative
      exact Files.Path.isLine_text_iff.mpr fun part hpart ↦
        Files.Path.isLine_text_iff.mp h part (List.mem_of_mem_drop hpart)
    next => cases hrelative

theorem isLine_text {l : Location} (hfile : l.file = some file)
    (hpointer : ∀ pointer, l.pointer = some pointer → pointer.IsLine) : (l.text base).IsLine := by
  have hshown : (shownFile base file).IsLine := isLine_shownFile h
  rw [text, hfile]
  extract_lets place
  have hplace : place.IsLine := by
    simp only [place]
    split <;> simp
  cases hsome : l.pointer with
  | none => simp [Text.joined, hshown, hplace]
  | some pointer =>
    have hline := hpointer pointer hsome
    cases pointer with
    | nil => simp [Text.joined, hshown, hplace]
    | cons x rest =>
      rw [Text.isLine_cons] at hline
      simp [Text.joined, hshown, hplace, hline]

end Source.Location

namespace Lint

open Log (Written)

/-! ## Entries on one line -/

/-- What a report says, errors first, each entry with its severity. -/
def Report.records (r : Report) : List (Severity × Entry) :=
  r.errors.map (.error, ·) ++ r.warnings.map (.warning, ·)

variable {base : Option Files.Path} {file : Files.Path}

theorem forall_mem_records_iff {r : Report} {p : Entry → Prop} :
    (∀ x ∈ r.records, p x.2) ↔ (∀ e ∈ r.errors, p e) ∧ ∀ e ∈ r.warnings, p e := by
  rw [Report.records, List.forall_mem_append, List.forall_mem_map, List.forall_mem_map]

theorem isLine_breakOffEntry {fault : Fault} (h : fault.message.IsLine) :
    (breakOffEntry fault).message.IsLine := by
  simp [breakOffEntry, h]

section

variable (h : file.text.IsLine)

include h

/-- The location after a message is on the line of the message. -/
theorem isLine_entryOf (m : Source.Map) {i : Issue} (hi : i.IsOnLine) :
    (entryOf base m file i).message.IsLine := by
  have hlocation : ((m.locate (some i.pointer) (some file)).text base).IsLine :=
    Source.Location.isLine_text h rfl fun pointer hpointer ↦ by cases hpointer; exact hi.2
  exact Text.isLine_append.mpr ⟨hi.1, hlocation⟩

theorem isLine_of_mem_entriesOf (m : Source.Map) (severity : Severity) {issues : List Issue}
    (hissues : ∀ i ∈ issues, i.IsOnLine) :
    ∀ e ∈ entriesOf base m file severity issues, e.message.IsLine := by
  rw [entriesOf, List.forall_mem_map]
  exact fun i hi ↦ isLine_entryOf h m (hissues i (List.mem_of_mem_filter hi))

end

theorem newline_notMem_utf8Error (e : Text.Utf8.Error) : '\n' ∉ e.message.toList := by
  have hproblem : '\n' ∉ e.problem.message.toList := by cases e.problem <;> decide
  rw [Text.Utf8.Error.message]
  split <;> simp [hproblem, newline_notMem_toDigits]

/-- An error of loading a file is told on one line, unless it is a flaw that is told on several. -/
theorem isLine_loadError {words : Yaml.Wording} {e : LoadError} (h : e.Names file)
    (hreported : e.isReported = true) (hfile : file.text.IsLine)
    (hflaw : ∀ origin text f, e = .flawed origin text f → (words text f).IsLine) :
    (e.message words).IsLine := by
  cases e with
  | notFound q =>
    cases h
    simp [LoadError.message, hfile]
  | notAFile q =>
    cases h
    simp [LoadError.message, hfile]
  | noAccess e => cases hreported
  | unreadable e =>
    cases h
    have hquoted := Text.isLine_quoted e.path.text
    have hrefusal : '\n' ∉ e.refusal.message.toList := by cases e.refusal <;> decide
    simp [LoadError.message, Files.AccessError.message, hfile, hquoted, hrefusal]
  | notText q e =>
    cases h
    simp [LoadError.message, hfile, newline_notMem_utf8Error]
  | flawed origin text f =>
    cases h
    simp [LoadError.message, hfile, hflaw _ _ _ rfl]
  | impossible f => cases hreported

/-! ## Reports on lines -/

section

variable {document : Value} (h : document.hasLineNames = true)

include h

theorem reportsLines_structureOf : ReportsLines (structureOf document).answer := by
  have hstructure := reportsLines_structureIssues h
  have hdropped := reportsLines_droppedIssues h
  rw [structureOf]
  simp only [Query.answer_bind, Query.answer_ofExcept]
  cases document.isMap with
  | true =>
    simp only [if_true, Query.answer_bind]
    exact hstructure.append hdropped
  | false => exact hstructure.append .nil

theorem reportsLines_referencesOf (file : Files.Path) :
    ReportsLines (referencesOf file document).answer := by
  rw [referencesOf, Query.answer_bind]
  cases hload : (Project.load document).answer with
  | error fault =>
    have hsettles : Settles False _ (Project.load document).answer :=
      settles_load_project False.elim
    exact hsettles.isLine_message fault hload
  | ok found =>
    cases found with
    | none => exact .nil
    | some p =>
      rw [ok_bind]
      simp only [Query.answer_bind]
      exact reportsLines_referenceIssues h hload

end

/-- Every entry of the report on a loaded document is on one line. -/
theorem Records.isLine_message {l : Loaded} {r : Report} (h : Records base file l r)
    (hfile : file.text.IsLine) (hnames : l.document.hasLineNames = true) :
    ∀ x ∈ r.records, x.2.message.IsLine := by
  have hstructure := reportsLines_structureOf hnames
  have hreferences := reportsLines_referencesOf hnames file
  refine (forall_mem_records_iff (p := fun e ↦ e.message.IsLine)).mpr ?_
  cases h with
  | complete hs hr =>
    rw [hs] at hstructure
    rw [hr] at hreferences
    have hissues := List.forall_mem_append.mpr ⟨hstructure, hreferences⟩
    exact ⟨isLine_of_mem_entriesOf hfile _ _ hissues, isLine_of_mem_entriesOf hfile _ _ hissues⟩
  | withoutStructure hs =>
    rw [hs] at hstructure
    exact ⟨List.forall_mem_singleton.mpr (isLine_breakOffEntry hstructure),
      fun _ he ↦ absurd he List.not_mem_nil⟩
  | withoutReferences hs hr =>
    rw [hs] at hstructure
    rw [hr] at hreferences
    refine ⟨List.forall_mem_append.mpr ⟨isLine_of_mem_entriesOf hfile _ _ hstructure, ?_⟩,
      isLine_of_mem_entriesOf hfile _ _ hstructure⟩
    exact List.forall_mem_singleton.mpr (isLine_breakOffEntry hreferences)

section

variable {words : Yaml.Wording} {t : Files.Tree}

theorem IsReportOn.isLine_message {r : Report} (h : IsReportOn words base t file r)
    (hfile : file.text.IsLine)
    (hreported : ∀ e, loadFile t file = .error e → e.isReported = true)
    (hflaw : ∀ origin text f, loadFile t file = .error (.flawed origin text f) →
      (words text f).IsLine)
    (hnames : ∀ l, loadFile t file = .ok l → l.document.hasLineNames = true) :
    ∀ x ∈ r.records, x.2.message.IsLine := by
  cases h with
  | unloaded hload =>
    refine List.forall_mem_singleton.mpr ?_
    refine isLine_loadError (Reader.names_of_load hload) (hreported _ hload) hfile ?_
    rintro origin text f rfl
    exact hflaw origin text f hload
  | loaded hload hrecords => exact hrecords.isLine_message hfile (hnames _ hload)

end

/-! ## Annotations -/

/-- Whether a line is the annotation of an entry about a file: it starts with the severity and the
file, and ends with the message. -/
structure IsAnnotation (file : Files.Path) (x : Severity × Entry) (line : Text) : Prop where
  isLine : line.IsLine
  start : ("::" ++ x.1.name ++ " file=" ++ file.text ++ ",line=" : Text) <+: line
  message : ("::" ++ x.2.message : Text) <:+ line

theorem isAnnotation_annotate {x : Severity × Entry} (hfile : file.text.IsLine)
    (hmessage : x.2.message.IsLine) : IsAnnotation file x (annotate x.1.name file x.2) where
  isLine := by
    obtain ⟨severity, e⟩ := x
    have hname : '\n' ∉ severity.name.toList := by cases severity <;> decide
    rw [annotate]
    split <;> simp [hname, hfile, hmessage]
  start := by
    simp [annotate, List.prefix_append_right_inj]
  message := by
    rw [annotate, List.append_assoc]
    exact List.suffix_append _ _

theorem annotations_eq (r : Report) :
    r.annotations = r.records.map fun x ↦ annotate x.1.name r.file x.2 := by
  rw [Report.annotations, Report.records, List.map_append, List.map_map, List.map_map]
  rfl

/-- What reports say, report by report. -/
def recordsOf (reports : List Report) : List (Files.Path × Severity × Entry) :=
  reports.flatMap fun r ↦ r.records.map (r.file, ·)

theorem lines_annotations_eq (reports : List Report) : Format.annotations.lines reports =
    (recordsOf reports).map fun x ↦ annotate x.2.1.name x.1 x.2.2 := by
  rw [Format.lines, recordsOf, List.map_flatMap]
  refine List.flatMap_congr fun r _ ↦ ?_
  rw [annotations_eq, List.map_map]
  rfl

/-- What is told of reports: everything up to the first entry that an encoding cannot take. -/
def toldOf (enc : Text.Encoding) (reports : List Report) : List (Files.Path × Severity × Entry) :=
  (recordsOf reports).takeWhile fun x ↦ enc.accepts x.1.text && enc.accepts x.2.2.message

section

variable {enc : Text.Encoding} {reports : List Report}

theorem takeWhile_lines_annotations :
    (Format.annotations.lines reports).takeWhile enc.accepts =
      (toldOf enc reports).map fun x ↦ annotate x.2.1.name x.1 x.2.2 := by
  rw [lines_annotations_eq, List.takeWhile_map, toldOf]
  congr 2
  funext x
  have hname : IsAscii x.2.1.name.toList := by cases x.2.1 <;> decide
  rw [Bool.eq_iff_iff, Function.comp_apply, accepts_annotate hname, Bool.and_eq_true]

/-- Reports that can be printed are told to the end. -/
theorem toldOf_of_isPrintable (h : ∀ r ∈ reports, r.IsPrintable enc) :
    toldOf enc reports = recordsOf reports := by
  rw [toldOf, List.takeWhile_eq_self_iff, recordsOf, List.forall_mem_flatMap]
  intro r hr
  rw [List.forall_mem_map]
  have hentries := List.forall_mem_append.mp (h r hr)
  have hrecords : ∀ x ∈ r.records,
      enc.accepts r.file.text = true ∧ enc.accepts x.2.message = true :=
    forall_mem_records_iff.mpr hentries
  exact fun x hx ↦ Bool.and_eq_true_iff.mpr (hrecords x hx)

end

section

variable {words : Yaml.Wording} {t : Files.Tree} {files : List Files.Path} {reports : List Report}

theorem eq_reportFile_of_lintFile {r : Report}
    (h : (lintFile words base t file).run.value = .ok r) :
    (∀ e, loadFile t file = .error e → e.isReported = true) ∧ r = reportFile words base t file := by
  change (Logged.value (Reader.load { caching := false } t file >>= _)) = _ at h
  rw [Logged.bind_value] at h
  have hload : (Reader.load { caching := false } t file).value.1 = loadFile t file := rfl
  rw [hload] at h
  rw [reportFile]
  cases hl : loadFile t file with
  | ok l =>
    rw [hl] at h
    cases h
    exact ⟨fun e he ↦ absurd he (by simp), rfl⟩
  | error e =>
    simp only [hl] at h
    split at h
    next hreported =>
      cases h
      exact ⟨fun e' he ↦ Except.error.inj he ▸ hreported, rfl⟩
    next => cases h

/-- If a batch has reports, no file has an error that is not reported, and they are those of its
files. -/
theorem eq_map_of_lintFiles (h : (lintFiles words base t files).run.value = .ok reports) :
    (∀ file ∈ files, ∀ e, loadFile t file = .error e → e.isReported = true) ∧
      reports = files.map (reportFile words base t) := by
  have hreports := (lintFiles_eq_ok_iff.mp h).imp fun file r ↦ eq_reportFile_of_lintFile
  obtain ⟨hreported, hreports⟩ := (List.forall₂_and_left _ _).mp hreports
  refine ⟨hreported, ?_⟩
  rw [← List.forall₂_eq_eq_eq, List.forall₂_map_right_iff]
  exact hreports.flip

/-- The annotations of a batch, read back at the line breaks of what was printed, are those of what
its reports say, one line for each error and each warning, in their order: no line break comes from
a document. They are the annotations of everything that the reports say if all of it can be printed,
and else of what comes before the first entry that cannot. It is asked that the files are named on
lines, that a flaw of a text is told on one, and that the names in the documents are on lines; what
else the documents hold does not matter. -/
theorem annotations_of_lintFiles (enc : Text.Encoding)
    (h : (lintFiles words base t files).run.value = .ok reports)
    (hfiles : ∀ file ∈ files, file.text.IsLine)
    (hflaws : ∀ file ∈ files, ∀ origin text f, loadFile t file = .error (.flawed origin text f) →
      (words text f).IsLine)
    (hnames : ∀ file ∈ files, ∀ l, loadFile t file = .ok l → l.document.hasLineNames = true) :
    (∃ lines, Text.partsBetween (.char '\n')
        (Written.printed enc (Format.annotations.lines reports)).out = lines ++ [[]] ∧
      List.Forall₂ (fun x line ↦ IsAnnotation x.1 x.2 line) (toldOf enc reports) lines) ∧
    ((∀ r ∈ reports, r.IsPrintable enc) → toldOf enc reports = recordsOf reports) := by
  obtain ⟨hreported, rfl⟩ := eq_map_of_lintFiles h
  have hannotations : ∀ x ∈ toldOf enc (files.map (reportFile words base t)),
      IsAnnotation x.1 x.2 (annotate x.2.1.name x.1 x.2.2) := by
    intro x hx
    have hrecord := (List.takeWhile_sublist _).subset hx
    obtain ⟨r, hr, y, hy, rfl⟩ : ∃ r ∈ files.map (reportFile words base t), ∃ y ∈ r.records,
        (r.file, y) = x := by simpa [recordsOf] using hrecord
    obtain ⟨file, hfile, rfl⟩ := List.mem_map.mp hr
    have hreport := isReportOn_reportFile words base t file
    have hmessages := hreport.isLine_message (hfiles file hfile) (hreported file hfile)
      (hflaws file hfile) (hnames file hfile)
    rw [hreport.file_eq]
    exact isAnnotation_annotate (hfiles file hfile) (hmessages y hy)
  refine ⟨⟨(toldOf enc (files.map (reportFile words base t))).map fun x ↦
    annotate x.2.1.name x.1 x.2.2, ?_, ?_⟩, toldOf_of_isPrintable⟩
  · rw [Written.printed, takeWhile_lines_annotations, Written.concat_lines]
    exact Text.partsBetween_lines (List.forall_mem_map.mpr fun x hx ↦ (hannotations x hx).isLine)
  · rw [List.forall₂_map_right_iff, List.forall₂_same]
    exact hannotations

end

/-- The file of a project in which a parent is missing, and a remark has two lines. -/
def orphanBytes : List UInt8 :=
  ("modules: \x7bm: \x7bentities: \x7bA: \x7btype: 0, isAbstract: false, " ++
    "fieldsLocal: \x7b\x7d, genericMap: \x7b\x7d, comment: \"a\\nb\", " ++
    "parent: \x7bmodule: m, name: B\x7d\x7d\x7d\x7d\x7d").toList.map fun c ↦ .ofNat c.toNat

set_option maxRecDepth 10000 in
theorem isTextOf_orphanBytes : Loaded.isTextOf Value.hasLineNames orphanBytes = true := by
  decide +kernel

/-- A file in which a brace is not closed. -/
def unclosedBytes : List UInt8 := Course.bytesOf "\x7b".toList

theorem isFlawedBy_unclosedBytes : Loaded.isFlawedBy .grammar unclosedBytes = true := by
  decide +kernel

/-- Both files; a third one, which stands between them, is missing. -/
def orphanTree : Files.Tree := (treeOf orphanBytes).put (.ofText "c.yaml") (.file unclosedBytes)

def orphanFiles : List Files.Path := [.ofText "a.yaml", .ofText "b.yaml", .ofText "c.yaml"]

/-- The first file has lines as names, the second is missing, and the third is flawed. -/
theorem exists_loadFile_orphanTree : ∃ l text,
    loadFile orphanTree (.ofText "a.yaml") = .ok l ∧ l.document.hasLineNames = true ∧
      loadFile orphanTree (.ofText "b.yaml") = .error (.notFound (.ofText "b.yaml")) ∧
      loadFile orphanTree (.ofText "c.yaml") = .error (.flawed "c.yaml" text .grammar) := by
  obtain ⟨l, hread, hnames⟩ :=
    Loaded.exists_ofBytes_of_isTextOf isTextOf_orphanBytes (.ofText "a.yaml")
  obtain ⟨text, hflawed⟩ :=
    Loaded.exists_ofBytes_of_isFlawedBy isFlawedBy_unclosedBytes (.ofText "c.yaml")
  exact ⟨l, text, (loadFile_of_find rfl rfl).trans hread, hnames, rfl,
    (loadFile_of_find rfl rfl).trans hflawed⟩

/-- These files are annotated on lines if the flaw is told on one. -/
theorem annotations_orphanTree :
    let words : Yaml.Wording := fun _ f ↦ f.label
    ∃ reports lines text, (lintFiles words none orphanTree orphanFiles).run.value = .ok reports ∧
      loadFile orphanTree (.ofText "c.yaml") = .error (.flawed "c.yaml" text .grammar) ∧
      (∀ file ∈ orphanFiles, file.text.IsLine) ∧
      (∀ file ∈ orphanFiles, ∀ origin text f,
        loadFile orphanTree file = .error (.flawed origin text f) → (words text f).IsLine) ∧
      (∀ file ∈ orphanFiles, ∀ l, loadFile orphanTree file = .ok l →
        l.document.hasLineNames = true) ∧
      Text.partsBetween (.char '\n')
        (Written.printed .utf8 (Format.annotations.lines reports)).out = lines ++ [[]] ∧
      List.Forall₂ (fun x line ↦ IsAnnotation x.1 x.2 line) (toldOf .utf8 reports) lines := by
  intro words
  obtain ⟨l, text, hload, hnames, hmissing, hflawed⟩ := exists_loadFile_orphanTree
  have hfiles : ∀ file ∈ orphanFiles, file.text.IsLine := by decide
  have hdocuments : ∀ file ∈ orphanFiles, ∀ l, loadFile orphanTree file = .ok l →
      l.document.hasLineNames = true := by
    simpa [orphanFiles, hload, hmissing, hflawed] using hnames
  have hlabel : (words text .grammar).IsLine := by decide
  have hflaws : ∀ file ∈ orphanFiles, ∀ origin text f,
      loadFile orphanTree file = .error (.flawed origin text f) → (words text f).IsLine := by
    simpa [orphanFiles, hload, hmissing, hflawed] using hlabel
  have hreported : ∀ file ∈ orphanFiles, ∀ e, loadFile orphanTree file = .error e →
      e.isReported = true := by
    simp [orphanFiles, hload, hmissing, hflawed, LoadError.isReported]
  have hreports := @lintFiles_eq_map words none _ _ hreported
  obtain ⟨⟨lines, hparts, hmatch⟩, -⟩ :=
    annotations_of_lintFiles .utf8 hreports hfiles hflaws hdocuments
  exact ⟨_, lines, text, hreports, hflawed, hfiles, hflaws, hdocuments, hparts, hmatch⟩

end Lint

end EntityGraph
