import EntityGraph.Check.Structure
import EntityGraph.Proofs.Check.Walks
import EntityGraph.Proofs.Graph.Faults
import EntityGraph.Proofs.Graph.Numbering
import EntityGraph.Proofs.Model.FieldType
import EntityGraph.Proofs.Pointer
import EntityGraph.Proofs.Schema.Telling
import EntityGraph.Proofs.Schema.ViolationPaths
import EntityGraph.Proofs.Value.Lines

/-!
# Issues on one line

What the checks report is on one line where the names in a document are: its keys, which come into
pointers and into the paths of entities, and the parts of the paths that it refers by. Those are
written as they stand. Every other value comes into a message in quotes or as a number, so nothing
is asked of it; descriptions and fixed values may have as many lines as they like.

A check that breaks off reports its fault, and that is on one line as well: a fault tells of the
kind of a value and never of the value, and the one fault that tells of paths is reported as an
issue.
-/

namespace EntityGraph

open Schema

/-! ## Names in documents -/

/-- The keys under which paths stand. -/
def pathKeys : List Text := ["parent", "response", "entity", "enu"]

namespace Value

/-- Whether the path that is read from a value, if there is one, is on one line. -/
def isPathOnLine (v : Value) : Bool :=
  (ElementPath.load v).all fun path ↦ decide path.text.IsLine

/-- Whether a path stands under a key. -/
def isPathKey : Value → Bool
  | .str key => pathKeys.contains key
  | _ => false

mutual

/-- Whether every key of a mapping, and of the mappings under it, is on one line, and the paths in
them are. -/
def hasLineNames : Value → Bool
  | .map entries => entriesHaveLineNames entries
  | _ => true
termination_by structural v => v

/-- Whether every key of some entries, and of the mappings in their values, is on one line, and the
paths in them are. -/
def entriesHaveLineNames : List (Value × Value) → Bool
  | [] => true
  | (key, v) :: rest =>
    decide key.plain.IsLine && (!key.isPathKey || v.isPathOnLine) && hasLineNames v &&
      entriesHaveLineNames rest
termination_by structural entries => entries

end

theorem entriesHaveLineNames_iff {entries : List (Value × Value)} :
    entriesHaveLineNames entries = true ↔ ∀ e ∈ entries, e.1.plain.IsLine ∧
      (e.1.isPathKey = true → e.2.isPathOnLine = true) ∧ e.2.hasLineNames = true := by
  induction entries with
  | nil => simp [entriesHaveLineNames]
  | cons e entries ih =>
    obtain ⟨key, v⟩ := e
    have hpath : (!key.isPathKey || v.isPathOnLine) = true ↔
        (key.isPathKey = true → v.isPathOnLine = true) := by
      cases key.isPathKey <;> simp
    rw [entriesHaveLineNames, Bool.and_eq_true, Bool.and_eq_true, Bool.and_eq_true, ih,
      List.forall_mem_cons, decide_eq_true_eq, hpath]
    simp only [and_assoc]

theorem hasLineNames_field {v : Value} (h : v.hasLineNames = true) (key : Text) :
    (v.field key).hasLineNames = true := by
  refine field_of_forall (p := fun w ↦ w.hasLineNames = true) rfl ?_ key
  rintro entries rfl e he
  exact (entriesHaveLineNames_iff.mp h e he).2.2

/-- A path that is read under one of the keys of paths is on one line. -/
theorem isLine_of_load {v : Value} (h : v.hasLineNames = true) {key : Text} (hkey : key ∈ pathKeys)
    {path : ElementPath} (hpath : ElementPath.load (v.field key) = some path) :
    path.text.IsLine := by
  cases v with
  | map entries =>
    cases hw : lookup key entries with
    | none =>
      rw [field, hw] at hpath
      cases hpath
    | some w =>
      have hpathKey : (Value.str key).isPathKey = true := List.contains_iff_mem.mpr hkey
      have hline := (entriesHaveLineNames_iff.mp h _ (mem_of_lookup hw)).2.1 hpathKey
      rw [field, hw, Option.getD_some] at hpath
      rw [isPathOnLine, hpath] at hline
      exact of_decide_eq_true hline
  | _ => cases hpath

end Value

/-- The reference at the core of a type that is read from a value is on one line. -/
theorem FieldType.isLine_of_load {v : Value} (h : v.hasLineNames = true) {t : FieldType}
    (ht : (load v).value = some t) {path : ElementPath}
    (hpath : t.core = .object path ∨ t.core = .enumeration path) : path.text.IsLine := by
  have hdescribed := isDescribedBy_of_load ht
  induction t generalizing v with
  | primitive p => rcases hpath with hpath | hpath <;> cases hpath
  | object target =>
    rcases hpath with hpath | hpath
    · cases hpath
      exact Value.isLine_of_load h (by decide) hdescribed.2
    · cases hpath
  | enumeration target =>
    rcases hpath with hpath | hpath
    · cases hpath
    · cases hpath
      exact Value.isLine_of_load h (by decide) hdescribed.2
  | list member ih =>
    have hmember := hdescribed.2
    exact ih (Value.hasLineNames_field h "member") hmember hpath (isDescribedBy_of_load hmember)
  | unknown parameter => rcases hpath with hpath | hpath <;> cases hpath

/-! ## Pointers -/

namespace Pointer

@[simp] theorem isLine_escape {token : Text} : (escape token).IsLine ↔ token.IsLine := by
  have hpoint (x : CodePoint) : .char '\n' ∈ escapePoint x ↔ x = .char '\n' := by
    rw [escapePoint]
    split
    next h => simp [h]
    next =>
      split
      next h => simp [h]
      next => rw [List.mem_singleton, eq_comm]
  rw [Text.IsLine, escape, List.mem_flatMap]
  simp only [hpoint, exists_eq_right]
  rfl

@[simp] theorem isLine_join {base token : Text} :
    (join base token).IsLine ↔ base.IsLine ∧ token.IsLine := by
  rw [join, ← List.singleton_append, Text.isLine_append, Text.isLine_append, isLine_escape]
  simp [show Text.IsLine [.char '/'] from by decide]

theorem isLine_ofTokens {tokens : List Text} (h : ∀ token ∈ tokens, token.IsLine) :
    (ofTokens tokens).IsLine := by
  induction tokens with
  | nil => exact Text.isLine_nil
  | cons token tokens ih =>
    obtain ⟨htoken, hrest⟩ := List.forall_mem_cons.mp h
    rw [← List.nil_append (ofTokens _), ← join_append_ofTokens, Text.isLine_append, isLine_join]
    exact ⟨⟨Text.isLine_nil, htoken⟩, ih hrest⟩

end Pointer

/-! ## Messages -/

@[simp] theorem Value.Kind.newline_notMem_name (kind : Value.Kind) : '\n' ∉ kind.name.toList := by
  cases kind <;> decide

/-- A violation is told on one line, unless it cannot be told. -/
theorem Schema.Cause.isLine_message {cause : Cause} (h : ∀ p, cause ≠ .unresolved p) :
    cause.message.IsLine := by
  have hshown {vs : List Value} : ∀ t ∈ vs.map Value.shown, t.IsLine :=
    List.forall_mem_map.mpr fun v _ ↦ v.isLine_shown
  cases cause with
  | wrongType v names =>
    have hnames : ∀ t ∈ names.map Text.quoted, t.IsLine :=
      List.forall_mem_map.mpr fun t _ ↦ t.isLine_quoted
    simp [message, Value.isLine_shown, Text.isLine_listed hnames]
  | missingKey key => simp [message, Text.isLine_quoted]
  | notListed v values => simp [message, Value.isLine_shown]
  | notConstant value => simp [message, Value.isLine_shown]
  | noBranch v => simp [message, Value.isLine_shown]
  | severalBranches v met =>
    simp [message, Value.isLine_shown, Text.isLine_listed hshown]
  | forbidden v => simp [message, Value.isLine_shown]
  | undeclared keys =>
    have hverb : '\n' ∉ (if keys.length = 1 then " was" else " were").toList := by
      split <;> decide
    simp [message, Text.isLine_listed hshown, hverb]
  | unresolved p => exact absurd rfl (h p)

theorem DropReason.isLine_message {what : Text} (h : what.IsLine) {reason : DropReason}
    (hkeys : ∀ keys, reason = .missing keys → ∀ key ∈ keys, key.IsLine) :
    (reason.message what).IsLine := by
  cases reason with
  | notAMapping => simp [message, h]
  | missing keys =>
    have hquoted : ∀ t ∈ keys.map (fun k : Text ↦ "'" ++ k ++ "'"), t.IsLine :=
      List.forall_mem_map.mpr fun k hk ↦ by simp [hkeys keys rfl k hk]
    rw [message, Text.isLine_append, Text.isLine_append]
    exact ⟨⟨h, by decide⟩, Text.isLine_listed hquoted⟩
  | unsupported => simp [message, h]

namespace Fault

theorem isLine_numberTooLong : numberTooLong.message.IsLine := by decide

theorem isLine_notAKey (kind : Value.Kind) : (notAKey kind).message.IsLine := by
  simp [message]

theorem isLine_notAText (kind : Value.Kind) : (notAText kind).message.IsLine := by
  cases kind <;> decide

theorem isLine_cyclicInheritance {followed : List ElementPath}
    (h : ∀ path ∈ followed, path.text.IsLine) :
    (cyclicInheritance followed).message.IsLine := by
  have hpaths : (Text.joined " -> " (followed.map ElementPath.text)).IsLine :=
    Text.isLine_joined (by decide) (List.forall_mem_map.mpr h)
  simp [message, hpaths]

end Fault

/-! ## Issues -/

/-- Whether an issue is told on one line, at a pointer that is on one line. -/
def Issue.IsOnLine (i : Issue) : Prop := i.message.IsLine ∧ i.pointer.IsLine

/-- Whether what a check reports is on lines: its issues, or the fault that breaks it off. -/
def ReportsLines : Except Fault (List Issue) → Prop
  | .ok issues => ∀ i ∈ issues, i.IsOnLine
  | .error fault => fault.message.IsLine

namespace ReportsLines

variable {α : Type} {x y : Except Fault (List Issue)}

theorem nil : ReportsLines (.ok []) := fun _ hi ↦ absurd hi List.not_mem_nil

theorem singleton {i : Issue} (h : i.IsOnLine) : ReportsLines (.ok [i]) :=
  List.forall_mem_singleton.mpr h

/-- The second step of a check reports on lines if it does so after what the first one answers. -/
theorem bind_of_faults {x : Except Fault α} {f : α → Except Fault (List Issue)}
    (hx : ∀ fault, x = .error fault → fault.message.IsLine) (hf : ∀ a, ReportsLines (f a)) :
    ReportsLines (x >>= f) := by
  cases x with
  | error fault => exact hx fault rfl
  | ok a => exact hf a

theorem bind {f : List Issue → Except Fault (List Issue)} (hx : ReportsLines x)
    (hf : ∀ issues, (∀ i ∈ issues, i.IsOnLine) → ReportsLines (f issues)) :
    ReportsLines (x >>= f) := by
  cases x with
  | error fault => exact hx
  | ok issues => exact hf issues hx

theorem append (hx : ReportsLines x) (hy : ReportsLines y) :
    ReportsLines (x >>= fun found ↦ y >>= fun others ↦ .ok (found ++ others)) :=
  hx.bind fun _ hfound ↦ hy.bind fun _ hothers ↦ List.forall_mem_append.mpr ⟨hfound, hothers⟩

end ReportsLines

/-- Want of a text is the only fault of a computation that settles, and it is told on one line. -/
theorem Settles.isLine_message {α : Type} {condition : Prop} {property : α → Prop}
    {x : Except Fault α} (h : Settles condition property x) :
    ∀ fault, x = .error fault → fault.message.IsLine := by
  rintro fault rfl
  rw [h.1]
  exact Fault.isLine_numberTooLong

theorem SettlesAll.reportsLines {x : Except Fault (List Issue)}
    (h : SettlesAll Issue.IsOnLine x) : ReportsLines x := by
  cases x with
  | error fault => exact Settles.isLine_message h fault rfl
  | ok issues => exact h

/-! ## Structure -/

/-- The keys on the way to a violation are keys of the value. -/
theorem Schema.goesUp_isLine :
    GoesUp (fun v ↦ v.hasLineNames = true) fun _ x ↦ ∀ key ∈ x.path, key.plain.IsLine where
  root hpath := by
    rw [hpath]
    exact fun _ hkey ↦ absurd hkey List.not_mem_nil
  part hv he := (Value.entriesHaveLineNames_iff.mp hv _ he).2.2
  null _ _ _ hx := hx
  key hv he _ hx := List.forall_mem_cons.mpr ⟨(Value.entriesHaveLineNames_iff.mp hv _ he).1, hx⟩

theorem Schema.isOnLine_issue {document : Value} (h : document.hasLineNames = true)
    {x : Violation} (hx : x ∈ violations projectSchema document) (hbreaks : x.breaksOff = false) :
    x.issue.IsOnLine := by
  have hpath : ∀ key ∈ x.path, key.plain.IsLine := forall_check goesUp_isLine _ _ document h x hx
  refine ⟨Cause.isLine_message fun p hcause ↦ ?_,
    Pointer.isLine_ofTokens (List.forall_mem_map.mpr hpath)⟩
  rw [Violation.breaksOff, hcause] at hbreaks
  cases hbreaks

theorem reportsLines_structureIssues {document : Value} (h : document.hasLineNames = true) :
    ReportsLines (structureIssues projectSchema document) := by
  by_cases hmap : document.isMap = true
  · have hsettles := settles_structureIssues hmap
    cases hissues : structureIssues projectSchema document with
    | error fault =>
      rw [hissues] at hsettles
      exact Settles.isLine_message hsettles fault rfl
    | ok issues =>
      rw [hissues] at hsettles
      intro i hi
      obtain ⟨x, hx, rfl⟩ := (mem_iff_of_structureIssues hmap hissues i).mp hi
      exact isOnLine_issue h hx (hsettles x hx).1
  · rw [structureIssues, if_neg hmap]
    exact .singleton ⟨by decide, Text.isLine_nil⟩

/-! ## Dropped nodes -/

/-- Whether a node stands at a pointer on one line and has names on lines. -/
def IsLineNode (pointer : Text) (v : Value) : Prop := pointer.IsLine ∧ v.hasLineNames = true

namespace IsLineNode

theorem entersTables : EntersTables IsLineNode := by
  intro path v h key hkey entries hentries e he
  have hkeys : ∀ key ∈ tableKeys, key.IsLine := by decide
  have hv := Value.hasLineNames_field h.2 key
  rw [hentries] at hv
  obtain ⟨hname, -, hpart⟩ := Value.entriesHaveLineNames_iff.mp hv e he
  exact ⟨Pointer.isLine_join.mpr ⟨Pointer.isLine_join.mpr ⟨h.1, hkeys key hkey⟩, hname⟩, hpart⟩

end IsLineNode

namespace Dropped

/-- Only keys that are required are reported to be missing. -/
theorem isLine_message_reason {what : Text} (hwhat : what.IsLine) {required : List Text}
    (h : ∀ key ∈ required, key.IsLine) (v : Value) : ((reason required v).message what).IsLine := by
  refine DropReason.isLine_message hwhat fun keys hreason ↦ ?_
  rw [reason] at hreason
  split at hreason
  next =>
    split at hreason
    next => cases hreason
    next =>
      cases hreason
      rw [Value.missing]
      exact fun key hkey ↦ h key (List.mem_of_mem_filter hkey)
  next => cases hreason

theorem reports_isOnLine : Reports IsLineNode Issue.IsOnLine where
  entersTables := IsLineNode.entersTables
  dropped {kind name required path v} hrequired h := by
    have hkeys : ∀ required ∈ requirements, ∀ key ∈ required, key.IsLine := by decide
    have hwhat : Text.IsLine (kind.title ++ " " ++ name.shown) := by
      cases kind <;> simp [NodeKind.title, Value.isLine_shown]
    have hreason := isLine_message_reason hwhat (hkeys required hrequired) v
    exact ⟨Text.isLine_append.mpr ⟨hreason, by decide⟩, h.1⟩

end Dropped

theorem reportsLines_droppedIssues {document : Value} (h : document.hasLineNames = true) :
    ReportsLines (droppedIssues document).answer := by
  have hkeys : ∀ key ∈ Project.requiredKeys, key.IsLine := by decide
  have hnone : Issue.IsOnLine
      ⟨.notAProject (Dropped.reason Project.requiredKeys document), []⟩ :=
    ⟨Dropped.isLine_message_reason (by decide) hkeys document, Text.isLine_nil⟩
  exact (Dropped.reports_isOnLine.settles_droppedIssues ⟨Text.isLine_nil, h⟩ hnone).reportsLines

/-! ## References -/

namespace References

/-- Whether the pointer of an entity and everything that it refers by is on one line. -/
structure HasLinePaths (path : ElementPath) (e : Entity) : Prop where
  pointer : (entityPointer path).IsLine
  parent {target : ElementPath} : e.parent = some target → target.text.IsLine
  response {target : ElementPath} : e.response = some target → target.text.IsLine
  members {f : Value × Field} : f ∈ e.fields ∨ f ∈ e.bindings → f.1.plain.IsLine ∧
    ∀ target, f.2.type.core = .object target ∨ f.2.type.core = .enumeration target →
      target.text.IsLine

/-- The names on the way to an entity are those of its path. -/
theorem HasLinePaths.isLine_text {path : ElementPath} {e : Entity} (h : HasLinePaths path e) :
    path.text.IsLine := by
  have hpointer := h.pointer
  rw [entityPointer, Pointer.isLine_join, Pointer.isLine_join, Pointer.isLine_join] at hpointer
  simp [ElementPath.text, hpointer.1.1.2, hpointer.2]

/-- An entity that was read from a node of a document. -/
theorem hasLinePaths_of_isReadFrom {path : ElementPath} {e : Entity} {v : Value}
    (hnode : IsLineNode (entityPointer path) v) (hread : e.IsReadFrom v) : HasLinePaths path e where
  pointer := hnode.1
  parent h := Value.isLine_of_load hnode.2 (by decide) (hread.parent.symm.trans h)
  response h := Value.isLine_of_load hnode.2 (by decide) (hread.response.symm.trans h)
  members {f} h := by
    have hmember {kind : NodeKind} {key : Text} {t : Table Field} (hkey : key ∈ tableKeys)
        (ht : (loadChildren kind Field.load (v.field key)).answer = .ok t) (hf : f ∈ t) :
        f.1.plain.IsLine ∧ ∀ target,
          f.2.type.core = .object target ∨ f.2.type.core = .enumeration target →
            target.text.IsLine := by
      obtain ⟨w, hw, hload⟩ := IsLineNode.entersTables.exists_of_mem hnode hkey ht f hf
      have htype := (Field.isReadFrom_of_load hload).type
      exact ⟨(Pointer.isLine_join.mp hw.1).2, fun _ htarget ↦
        FieldType.isLine_of_load (Value.hasLineNames_field hw.2 "type") htype htarget⟩
    rcases h with h | h
    · exact hmember (by decide) hread.fields h
    · exact hmember (by decide) hread.bindings h

section

variable {p : Project EntityId} {path : ElementPath} {e : Entity}

theorem isLine_of_findEntity {target : ElementPath} :
    ∀ fault, p.findEntity target = .error fault → fault.message.IsLine := by
  intro fault hfault
  obtain ⟨part, -, rfl⟩ := Project.findEntity_eq_error_iff.mp hfault
  exact Fault.isLine_notAKey _

theorem isLine_of_findEnumeration {target : ElementPath} :
    ∀ fault, p.findEnumeration target = .error fault → fault.message.IsLine := by
  intro fault hfault
  obtain ⟨part, -, rfl⟩ := Project.findEnumeration_eq_error_iff.mp hfault
  exact Fault.isLine_notAKey _

theorem isLine_of_requireWritable {isWritable : Bool} :
    ∀ fault, Fault.requireWritable isWritable = .error fault → fault.message.IsLine := by
  have hsettles : Settles False (fun _ ↦ True) (Fault.requireWritable isWritable) :=
    .requireWritable False.elim
  exact hsettles.isLine_message

theorem reportsLines_issue {paths : List ElementPath} {finding : Finding} {pointer : Text}
    (h : finding.message.IsLine) (hpointer : pointer.IsLine) :
    ReportsLines (issue paths finding pointer) := by
  rw [issue]
  exact .bind_of_faults isLine_of_requireWritable fun _ ↦ .singleton ⟨h, hpointer⟩

theorem reportsLines_ofParent (h : HasLinePaths path e) :
    ReportsLines (ofParent p path (entityPointer path) e.parent) := by
  have howner := h.isLine_text
  have hpointer : (Pointer.join (entityPointer path) "parent").IsLine :=
    Pointer.isLine_join.mpr ⟨h.pointer, by decide⟩
  cases hparent : e.parent with
  | none => exact .nil
  | some target =>
    have htarget := h.parent hparent
    rw [ofParent]
    refine .bind_of_faults isLine_of_findEntity fun found ↦ ?_
    cases found with
    | some id => exact .nil
    | none =>
      refine .bind_of_faults isLine_of_findEnumeration fun found ↦ ?_
      cases found with
      | some _ => exact reportsLines_issue (by simp [Finding.message, htarget, howner]) hpointer
      | none => exact reportsLines_issue (by simp [Finding.message, htarget, howner]) hpointer

theorem reportsLines_ofResponse (h : HasLinePaths path e) :
    ReportsLines (ofResponse p path (entityPointer path) e.response) := by
  have howner := h.isLine_text
  cases hresponse : e.response with
  | none => exact .nil
  | some target =>
    have htarget := h.response hresponse
    rw [ofResponse]
    refine .bind_of_faults isLine_of_findEntity fun found ↦ ?_
    cases found with
    | some id => exact .nil
    | none =>
      exact reportsLines_issue (by simp [Finding.message, htarget, howner])
        (Pointer.isLine_join.mpr ⟨h.pointer, by decide⟩)

theorem reportsLines_ofType {pointer : Text} (hpointer : pointer.IsLine) {t : FieldType}
    (h : ∀ target, t.core = .object target ∨ t.core = .enumeration target → target.text.IsLine) :
    ReportsLines (ofType p pointer t) := by
  rw [ofType]
  split
  next target htarget =>
    refine .bind_of_faults isLine_of_findEntity fun found ↦ ?_
    cases found with
    | some id => exact .nil
    | none => exact reportsLines_issue (by simp [Finding.message, h target (.inl htarget)]) hpointer
  next target htarget =>
    refine .bind_of_faults isLine_of_findEnumeration fun found ↦ ?_
    cases found with
    | some e => exact .nil
    | none => exact reportsLines_issue (by simp [Finding.message, h target (.inr htarget)]) hpointer
  next => exact .nil

theorem reportsLines_ofFields {pointer : Text} (hpointer : pointer.IsLine) {fields : Table Field}
    (h : ∀ f ∈ fields, f.1.plain.IsLine ∧
      ∀ target, f.2.type.core = .object target ∨ f.2.type.core = .enumeration target →
        target.text.IsLine) :
    ReportsLines (ofFields p pointer fields) := by
  induction fields with
  | nil => exact .nil
  | cons f fields ih =>
    obtain ⟨name, f⟩ := f
    obtain ⟨⟨hname, htype⟩, hrest⟩ := List.forall_mem_cons.mp h
    rw [ofFields]
    cases name with
    | str text =>
      rw [token, ok_bind]
      exact (reportsLines_ofType (Pointer.isLine_join.mpr ⟨hpointer, hname⟩) htype).append
        (ih hrest)
    | _ => exact Fault.isLine_notAText _

theorem reportsLines_ofPaths (h : HasLinePaths path e) : ReportsLines (ofPaths p path e) := by
  have hpointer (key : Text) (hkey : key ∈ tableKeys) :
      (Pointer.join (entityPointer path) key).IsLine := by
    have hkeys : ∀ key ∈ tableKeys, key.IsLine := by decide
    exact Pointer.isLine_join.mpr ⟨h.pointer, hkeys key hkey⟩
  have hparent := reportsLines_ofParent (p := p) h
  have hresponse := reportsLines_ofResponse (p := p) h
  have hfields := reportsLines_ofFields (p := p) (hpointer "fieldsLocal" (by decide))
    fun _ hf ↦ h.members (.inl hf)
  have hbindings := reportsLines_ofFields (p := p) (hpointer "genericMap" (by decide))
    fun _ hf ↦ h.members (.inr hf)
  rw [ofPaths]
  refine .bind_of_faults isLine_of_requireWritable fun _ ↦ ?_
  refine hparent.bind fun _ hparent ↦ hresponse.bind fun _ hresponse ↦ ?_
  refine hfields.bind fun _ hfields ↦ hbindings.bind fun _ hbindings ↦ ?_
  simp only [ReportsLines, pure, Except.pure, List.forall_mem_append]
  exact ⟨⟨⟨hparent, hresponse⟩, hfields⟩, hbindings⟩

end

section

variable {g : Graph} (h : ∀ entry ∈ g.project.flatEntities, HasLinePaths entry.1 (g.entity entry.2))

include h

theorem isLine_of_parent {id : EntityId} (hid : id ∈ g.project.identities) {target : ElementPath}
    (hparent : (g.entity id).parent = some target) : target.text.IsLine := by
  obtain ⟨entry, hentry, rfl⟩ := List.mem_map.mp hid
  exact (h entry hentry).parent hparent

/-- The paths around a loop are the parents of entities that the project names. -/
theorem isLine_of_isLoop {id : EntityId} (hid : id ∈ g.project.identities)
    {followed : List ElementPath} (hloop : g.IsLoop (some g.project) id followed) :
    ∀ target ∈ followed, target.text.IsLine := by
  intro target htarget
  obtain ⟨i, hi⟩ := List.mem_iff_getElem?.mp htarget
  obtain ⟨e, he, hparent, -⟩ := hloop.paths i target hi
  rcases List.mem_cons.mp (Graph.mem_of_lineage he) with rfl | hmem
  · exact isLine_of_parent h hid hparent
  · exact isLine_of_parent h hmem hparent

theorem reportsLines_ofInheritance {entry : ElementPath × EntityId}
    (hentry : entry ∈ g.project.flatEntities) :
    ReportsLines (ofInheritance g entry.1 entry.2).answer := by
  have hid : entry.2 ∈ g.project.identities := List.mem_map_of_mem hentry
  have hpointer : (Pointer.join (entityPointer entry.1) "parent").IsLine :=
    Pointer.isLine_join.mpr ⟨(h entry hentry).pointer, by decide⟩
  rw [answer_ofInheritance]
  cases hwalk : (g.ancestors (some g.project) entry.2).answer with
  | ok chain => exact .nil
  | error fault =>
    rcases Graph.answer_ancestors_eq_error_iff.mp hwalk with
      ⟨followed, hloop, rfl⟩ | ⟨_, _, _, part, _, _, _, rfl⟩
    · have hline := Fault.isLine_cyclicInheritance (isLine_of_isLoop h hid hloop)
      by_cases hall : followed.all ElementPath.isWritable = true
      · rw [Fault.cyclic, if_pos hall]
        exact .singleton ⟨hline, hpointer⟩
      · rw [Fault.cyclic, if_neg hall]
        exact Fault.isLine_numberTooLong
    · exact Fault.isLine_notAKey _

theorem reportsLines_ofEntities {entries : List (ElementPath × EntityId)}
    (hentries : ∀ entry ∈ entries, entry ∈ g.project.flatEntities) :
    ReportsLines (ofEntities g entries).answer := by
  induction entries with
  | nil => exact .nil
  | cons entry entries ih =>
    obtain ⟨hentry, hrest⟩ := List.forall_mem_cons.mp hentries
    have hpaths := reportsLines_ofPaths (p := g.project) (h entry hentry)
    rw [ofEntities]
    simp only [Query.answer_bind, Query.answer_ofExcept]
    refine hpaths.bind fun _ hpaths ↦ (reportsLines_ofInheritance h hentry).bind fun _ hwalk ↦ ?_
    refine (ih hrest).bind fun _ hothers ↦ ?_
    simp only [ReportsLines, Query.answer_pure, List.forall_mem_append]
    exact ⟨⟨hpaths, hwalk⟩, hothers⟩

end

end References

theorem reportsLines_referenceIssues {document : Value} (h : document.hasLineNames = true)
    {p : Project Entity} (hload : (Project.load document).answer = .ok (some p)) :
    ReportsLines (referenceIssues (Graph.ofProject p)).answer := by
  refine References.reportsLines_ofEntities (fun entry hentry ↦ ?_) fun _ hentry ↦ hentry
  obtain ⟨v, hnode, hread⟩ := IsLineNode.entersTables.exists_of_mem_flatEntities
    ⟨Text.isLine_nil, h⟩ hload _ (Graph.mem_flatEntities_of_mem_ofProject hentry)
  exact References.hasLinePaths_of_isReadFrom hnode hread

/-- A parent with a line break in its name is told on two lines. -/
example : ¬ (Finding.parentUnresolved ⟨.str "m\n::error", .str "B"⟩
    ⟨.str "m", .str "A"⟩).message.IsLine := by
  decide

end EntityGraph
