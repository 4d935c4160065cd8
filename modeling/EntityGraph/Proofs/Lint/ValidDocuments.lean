import EntityGraph.Lint.Linting
import EntityGraph.Proofs.Check.ValidReferences
import EntityGraph.Proofs.Model.Lossless

/-!
# Linting valid documents

A document without violations describes a project, so both checks of a report begin. The check of
the structure always answers. The check of the references breaks off where a field or a binding is
not called by a text, and the report then says so in place of the issues of the references.
-/

namespace EntityGraph

open Schema

/-! ## The graph of a valid document -/

namespace Graph

variable {p : Project Entity}

theorem memberNames_ofProject (p : Project Entity) :
    ((ofProject p).project.flatEntities.flatMap fun e ↦ ((ofProject p).entity e.2).memberNames) =
      p.memberNames := by
  rw [Project.memberNames, ← flatEntities_ofProject, List.flatMap_map]

variable (h : ∀ entry ∈ p.flatEntities, entry.1.isWritable = true ∧ entry.2.HasTextualPaths)

include h in
theorem hasTextualParents_ofProject : (ofProject p).HasTextualParents := by
  intro id hid
  obtain ⟨entry, hentry, rfl⟩ := List.mem_map.mp hid
  exact (h _ (mem_flatEntities_of_mem_ofProject hentry)).2.parent

include h in
/-- The reference check of the graph of a project whose paths are textual ends at the first name
of a field or of a binding that is not a text. -/
theorem endsAt_referenceIssues :
    EndsAt (firstUntextual p.memberNames) (referenceIssues (ofProject p)).answer := by
  rw [← memberNames_ofProject, referenceIssues]
  exact References.endsAt_ofEntities (hasTextualParents_ofProject h) (fun _ hentry ↦ hentry)
    fun entry hentry ↦ h _ (mem_flatEntities_of_mem_ofProject hentry)

end Graph

/-! ## Reports -/

namespace Lint

variable {words : Yaml.Wording} {base : Option Files.Path} {file : Files.Path} {l : Loaded}

/-- What a file holds decides its report, however it was read. -/
theorem lintFile_of_load {t : Files.Tree} {kept : Reader}
    (h : (Reader.load { caching := false } t file).value = (.ok l, kept)) :
    (lintFile words base t file).run.value = .ok (reportOf base file l).value := by
  change (Logged.value (Reader.load _ t file >>= _)) = _
  rw [Logged.bind_value, h]
  rfl

/-- The report of a fault that breaks a check off. -/
def Report.brokenOff (r : Report) (fault : Fault) : Report :=
  r.addError { message := "Unexpected error during linting: " ++ fault.message }

/-- A report on a document whose structure cannot be told. -/
theorem reportOf_of_structureOf_error {fault : Fault}
    (h : (structureOf l.document).answer = .error fault) :
    (reportOf base file l).value = ({ file } : Report).brokenOff fault := by
  have hstructure : (structureOf l.document).outcome.value = .error fault := h
  rw [reportOf, Logged.bind_value, hstructure]
  rfl

/-- A report has the issues of the structure and of the references, if the checks answer. -/
theorem reportOf_of_structureOf {structural : List Issue}
    (h : (structureOf l.document).answer = .ok structural) :
    (reportOf base file l).value =
      let r := ({ file } : Report).addIssues base l.sourceMap structural
      match (referencesOf file l.document).answer with
      | .ok references => r.addIssues base l.sourceMap references
      | .error fault => r.brokenOff fault := by
  have hstructure : (structureOf l.document).outcome.value = .ok structural := h
  rw [reportOf, Logged.bind_value, hstructure]
  cases hreferences : (referencesOf file l.document).answer with
  | ok references =>
    have houtcome : (referencesOf file l.document).outcome.value = .ok references := hreferences
    simp only [Logged.bind_value, houtcome, Logged.pure_value]
  | error fault =>
    have houtcome : (referencesOf file l.document).outcome.value = .error fault := hreferences
    simp only [Logged.bind_value, houtcome]
    rfl

/-- The structure of a valid document: its entities that are written with a point. -/
theorem structureOf_of_structureIssues_eq_nil {document : Value}
    (hvalid : structureIssues projectSchema document = .ok [])
    (hkeys : document.keysWritable = true) :
    (structureOf document).answer =
      .ok ((Dropped.floatWired document).map Dropped.unsupportedEntity) := by
  have hviolations := violations_eq_nil_of_structureIssues_eq_nil hvalid
  have hmap : document.isMap = true := (modules_of_violations_eq_nil hviolations).1
  obtain ⟨issues, hanswer, rfl⟩ :=
    (settles_droppedIssues hviolations).exists_answer hkeys
  rw [structureOf, hvalid, hmap]
  simp [hanswer]

/-- The reference check of a valid document ends at the first name of a field or of a binding that
is not a text. -/
theorem endsAt_referencesOf (file : Files.Path) {document : Value} {p : Project Entity}
    (hvalid : structureIssues projectSchema document = .ok [])
    (hkeys : document.keysWritable = true)
    (h : (Project.load document).answer = .ok (some p)) :
    EndsAt (firstUntextual p.memberNames) (referencesOf file document).answer := by
  have htextual := hasTextualPaths_of_mem_flatEntities
    (violations_eq_nil_of_structureIssues_eq_nil hvalid) hkeys h
  rw [referencesOf, Query.answer_bind, h, ok_bind]
  exact Graph.endsAt_referenceIssues htextual

/-- The report of a valid document whose keys have texts, which is that of every file it is read
from. Loading and the check of the structure always answer. If all fields and bindings are called by
texts, so does the check of the references; otherwise the first of them that is not breaks it off,
and the report says that linting failed. -/
theorem reportOf_of_structureIssues_eq_nil (base : Option Files.Path) (file : Files.Path)
    (l : Loaded) (hvalid : structureIssues projectSchema l.document = .ok [])
    (hkeys : l.document.keysWritable = true) :
    (∀ words t kept, (Reader.load { caching := false } t file).value = (.ok l, kept) →
        (lintFile words base t file).run.value = .ok (reportOf base file l).value) ∧
    ∃ p structural, (Project.load l.document).answer = .ok (some p) ∧
      (structureOf l.document).answer = .ok structural ∧
      let r := ({ file } : Report).addIssues base l.sourceMap structural
      match firstUntextual p.memberNames with
      | none => ∃ references, (referencesOf file l.document).answer = .ok references ∧
          (reportOf base file l).value = r.addIssues base l.sourceMap references
      | some name => (referencesOf file l.document).answer = .error (.notAText name.kind) ∧
          (reportOf base file l).value = r.brokenOff (.notAText name.kind) := by
  obtain ⟨p, hload⟩ :=
    (settles_project (violations_eq_nil_of_structureIssues_eq_nil hvalid) id).exists_some hkeys
  have hstructure := structureOf_of_structureIssues_eq_nil hvalid hkeys
  -- The structure answers in any case; how the references end decides the rest of the report.
  have hends := endsAt_referencesOf file hvalid hkeys hload
  refine ⟨fun _ _ _ hread ↦ lintFile_of_load hread, p, _, hload, hstructure, ?_⟩
  rw [reportOf_of_structureOf hstructure]
  cases hname : firstUntextual p.memberNames with
  | none =>
    rw [hname] at hends
    obtain ⟨references, hreferences⟩ := hends
    exact ⟨references, hreferences, by rw [hreferences]⟩
  | some name =>
    rw [hname] at hends
    have hreferences : (referencesOf file l.document).answer = .error (.notAText name.kind) := hends
    exact ⟨hreferences, by rw [hreferences]⟩

/-- A valid document whose only field is called by a number: its report has nothing but the fault of
the check of the references. -/
theorem reportOf_numberedFieldDocument :
    structureIssues projectSchema (fieldDocument (.int 1)) = .ok [] ∧
      (fieldDocument (.int 1)).keysWritable = true ∧
      (reportOf none (.ofText "a.yaml") ⟨fieldDocument (.int 1), []⟩).value =
        ({ file := .ofText "a.yaml" } : Report).brokenOff (.notAText .int) := by
  have hvalid := structureIssues_fieldDocument (.int 1)
  have hkeys : (fieldDocument (.int 1)).keysWritable = true := by decide +kernel
  refine ⟨hvalid, hkeys, ?_⟩
  obtain ⟨-, p, structural, hload, hstructure, hreport⟩ :=
    reportOf_of_structureIssues_eq_nil none (.ofText "a.yaml") ⟨fieldDocument (.int 1), []⟩
      hvalid hkeys
  have hname : firstUntextual p.memberNames = some (.int 1) := by
    have hanswer : (Project.load (fieldDocument (.int 1))).answer.map
        (Option.map fun p ↦ firstUntextual p.memberNames) = .ok (some (some (.int 1))) := rfl
    rw [hload] at hanswer
    exact Option.some.inj (Except.ok.inj hanswer)
  have hsound : (structureOf (fieldDocument (.int 1))).answer = .ok [] :=
    structureOf_of_structureIssues_eq_nil hvalid hkeys
  cases hsound.symm.trans hstructure
  rw [hname] at hreport
  exact hreport.2

end Lint

end EntityGraph
