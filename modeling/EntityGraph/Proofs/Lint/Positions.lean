import EntityGraph.Lint.Linting
import EntityGraph.Proofs.Check.Designated
import EntityGraph.Proofs.Documents.Texts
import EntityGraph.Proofs.Lint.ValidDocuments
import EntityGraph.Proofs.Source.Positions

/-!
# Positions in reports

The entries of the report on a text say where things were found: a pointer, a line and a column. If
the node tree of the text is plain, the pointer leads to a node of the tree, and the position is
where that node starts, never where a node around it does. For the pointer designates a part of the
document, the parts of the document are the nodes of the tree, and the source map knows every node
under its own pointer, so that the search for the nearest position ends where it begins.
-/

namespace EntityGraph

open Yaml

/-! ## Nodes and parts -/

namespace Loaded

variable {n : Node}

theorem hasTextKeys_ofRoot (h : n.isPlain = true) : (ofRoot n).document.HasTextKeys := by
  rw [ofRoot, orEmpty]
  split
  next => exact ⟨rfl, rfl⟩
  next => exact Node.hasTextKeys_draft n h

/-- The parts of the document are nodes of the tree. -/
theorem exists_node_of_designates (h : n.isPlain = true) {pointer : Text}
    (hpointer : Pointer.Designates (ofRoot n).document pointer) :
    ∃ tokens target, pointer = Pointer.ofTokens tokens ∧
      ((ofRoot n).document.at? tokens).isSome = true ∧ n.at? tokens = some target := by
  obtain ⟨tokens, rfl, hpart⟩ := hpointer
  have hnode : (n.at? tokens).isSome = true := by
    rw [ofRoot, orEmpty] at hpart
    split at hpart
    next =>
      -- In the place of null stands a mapping without entries, of which only the root is a part.
      cases tokens with
      | nil => rfl
      | cons token tokens => cases hpart
    next =>
      rw [Node.at?_draft h, Option.isSome_map] at hpart
      exact hpart
  obtain ⟨target, htarget⟩ := Option.isSome_iff_exists.mp hnode
  exact ⟨tokens, target, rfl, hpart, htarget⟩

end Loaded

namespace Lint

/-! ## Entries of reports -/

/-- Everything that a report says, the errors first. -/
def Report.entries (r : Report) : List Entry := r.errors ++ r.warnings

/-- Whether an entry says where a node of a tree is: at a pointer whose tokens lead to the node and
to a part of the document, and at the line and the column, counted from one, where the node
starts. -/
def Entry.IsAtNode (document : Value) (n : Node) (e : Entry) : Prop :=
  ∃ tokens target, e.pointer = some (Pointer.ofTokens tokens) ∧
    (document.at? tokens).isSome = true ∧ n.at? tokens = some target ∧
    e.position = ⟨some (target.place.line + 1), some (target.place.column + 1)⟩

/-- Whether an entry says that a fault broke the linting off. -/
def Entry.IsBreakOff (e : Entry) : Prop :=
  ∃ fault : Fault, e = { message := "Unexpected error during linting: " ++ fault.message }

variable {base : Option Files.Path} {file : Files.Path}

theorem forall_entries_addIssue {property : Entry → Prop} {m : Source.Map} {r : Report} {i : Issue}
    (hr : ∀ e ∈ r.entries, property e)
    (hi : ∀ e : Entry, e.pointer = some i.pointer →
      e.position = (m.nearest? i.pointer).getD {} → property e) :
    ∀ e ∈ (r.addIssue base m i).entries, property e := by
  intro e he
  rw [Report.addIssue] at he
  split at he
  next =>
    rw [Report.entries, Report.addError, List.append_assoc, List.mem_append, List.mem_append,
      List.mem_singleton] at he
    rcases he with he | rfl | he
    · exact hr e (List.mem_append_left _ he)
    · exact hi _ rfl rfl
    · exact hr e (List.mem_append_right _ he)
  next =>
    rw [Report.entries, Report.addWarning, List.mem_append, List.mem_append,
      List.mem_singleton] at he
    rcases he with he | he | rfl
    · exact hr e (List.mem_append_left _ he)
    · exact hr e (List.mem_append_right _ he)
    · exact hi _ rfl rfl

theorem forall_entries_addIssues {property : Entry → Prop} {m : Source.Map} {r : Report}
    {issues : List Issue} (hr : ∀ e ∈ r.entries, property e)
    (hi : ∀ i ∈ issues, ∀ e : Entry, e.pointer = some i.pointer →
      e.position = (m.nearest? i.pointer).getD {} → property e) :
    ∀ e ∈ (r.addIssues base m issues).entries, property e := by
  rw [Report.addIssues]
  induction issues generalizing r with
  | nil => exact hr
  | cons i issues ih =>
    obtain ⟨hfirst, hrest⟩ := List.forall_mem_cons.mp hi
    exact ih (forall_entries_addIssue hr hfirst) hrest

section

variable {n : Node} (h : n.isPlain = true)

include h

/-- An issue at a part of the document is entered where the node of that part starts. -/
theorem isAtNode_of_designates {i : Issue}
    (hi : Pointer.Designates (Loaded.ofRoot n).document i.pointer) {e : Entry}
    (hpointer : e.pointer = some i.pointer)
    (hposition : e.position = (n.sourceMap.nearest? i.pointer).getD {}) :
    e.IsAtNode (Loaded.ofRoot n).document n := by
  obtain ⟨tokens, target, htokens, hpart, htarget⟩ := Loaded.exists_node_of_designates h hi
  refine ⟨tokens, target, by rw [hpointer, htokens], hpart, htarget, ?_⟩
  rw [hposition, htokens,
    Source.Map.nearest?_of_position? (Node.position?_sourceMap htarget)]
  rfl

theorem forall_entries_addIssues_isAtNode {r : Report} {issues : List Issue}
    (hr : ∀ e ∈ r.entries, e.IsAtNode (Loaded.ofRoot n).document n)
    (hi : ∀ i ∈ issues, i.IsPlaced (Loaded.ofRoot n).document) :
    ∀ e ∈ (r.addIssues base n.sourceMap issues).entries,
      e.IsAtNode (Loaded.ofRoot n).document n :=
  forall_entries_addIssues hr fun i hmem _ hpointer hposition ↦
    isAtNode_of_designates h (hi i hmem) hpointer hposition

end

/-! ## The issues of both checks -/

section

variable {document : Value} (h : document.HasTextKeys)

include h

theorem isPlaced_structureOf :
    YieldsAll (Issue.IsPlaced document) (structureOf document).answer := by
  rw [structureOf]
  simp only [Query.answer_bind, Query.answer_ofExcept]
  have hdropped := isPlaced_droppedIssues h
  cases document.isMap with
  | true =>
    simp only [if_true, Query.answer_bind]
    exact (isPlaced_structureIssues h _).append hdropped
  | false => exact (isPlaced_structureIssues h _).append .nil

theorem isPlaced_referencesOf (file : Files.Path) :
    YieldsAll (Issue.IsPlaced document) (referencesOf file document).answer := by
  rw [referencesOf, Query.answer_bind]
  cases hload : (Project.load document).answer with
  | error fault => exact .error fault
  | ok found =>
    cases found with
    | none => exact .nil
    | some p =>
      rw [ok_bind]
      simp only [Query.answer_bind]
      exact .bind_right fun _ ↦ isPlaced_referenceIssues h hload

end

theorem forall_entries_brokenOff {property : Entry → Prop} {r : Report} {fault : Fault}
    (hr : ∀ e ∈ r.entries, property e) :
    ∀ e ∈ (r.brokenOff fault).entries, property e ∨ e.IsBreakOff := by
  intro e he
  rw [Report.entries, Report.brokenOff, Report.addError, List.append_assoc, List.mem_append,
    List.mem_append, List.mem_singleton] at he
  rcases he with he | he | he
  · exact Or.inl (hr e (List.mem_append_left _ he))
  · exact Or.inr ⟨fault, he⟩
  · exact Or.inl (hr e (List.mem_append_right _ he))

/-- The report on what was loaded from a text whose node tree is plain: every issue that either
check finds is entered at the pointer of a node and at the position where that node starts. The only
other entry is that of a fault that breaks the linting off, which is about no node. -/
theorem entries_reportOf_of_isPlain (base : Option Files.Path) (file : Files.Path)
    {origin text : Text} {n : Node} {l : Loaded} (hroot : rootOf? text = .ok (some n))
    (hplain : n.isPlain = true) (hload : Loaded.ofText origin text = .ok l) :
    ∀ e ∈ (reportOf base file l).value.entries, e.IsAtNode l.document n ∨ e.IsBreakOff := by
  rw [Loaded.eq_ofRoot_of_ofText hroot hload]
  have hkeys := Loaded.hasTextKeys_ofRoot hplain
  have hblank : ∀ e ∈ ({ file } : Report).entries,
      e.IsAtNode (Loaded.ofRoot n).document n := fun e he ↦ absurd he List.not_mem_nil
  cases hstructure : (structureOf (Loaded.ofRoot n).document).answer with
  | error fault =>
    rw [reportOf_of_structureOf_error hstructure]
    exact forall_entries_brokenOff hblank
  | ok structural =>
    have hstructural : ∀ e ∈ (({ file } : Report).addIssues base n.sourceMap structural).entries,
        e.IsAtNode (Loaded.ofRoot n).document n :=
      forall_entries_addIssues_isAtNode hplain hblank (isPlaced_structureOf hkeys _ hstructure)
    rw [reportOf_of_structureOf hstructure]
    dsimp only
    split
    next references hreferences =>
      intro e he
      exact Or.inl (forall_entries_addIssues_isAtNode hplain hstructural
        (isPlaced_referencesOf hkeys file _ hreferences) e he)
    next fault _ => exact forall_entries_brokenOff hstructural

/-- A text with a module that is there twice. Only the second one counts, and in it the name of an
entity holds a slash. -/
def repeatedModuleText : Text := "modules: \x7bm: 1, m: \x7bentities: \x7ba/b: 2\x7d\x7d\x7d"

set_option maxRecDepth 10000 in
theorem isPlain_repeatedModuleText :
    (match rootOf? repeatedModuleText with
      | .ok (some n) =>
        n.isPlain && (n.draft firstLabel).steps.all (·.2.isSure) &&
          ((n.at? ["modules", "m", "entities", "a/b"]).map (·.place.column)) == some 36
      | _ => false) = true := by
  decide +kernel

/-- Whatever is found in that text stands where its node does. -/
theorem entries_reportOf_repeatedModuleText :
    ∃ n l, rootOf? repeatedModuleText = .ok (some n) ∧ n.isPlain = true ∧
      Loaded.ofText "a.yaml" repeatedModuleText = .ok l ∧
      ∀ e ∈ (reportOf none (.ofText "a.yaml") l).value.entries,
        e.IsAtNode l.document n ∨ e.IsBreakOff := by
  have hread := isPlain_repeatedModuleText
  split at hread
  next n hroot =>
    rw [Bool.and_eq_true, Bool.and_eq_true, List.all_eq_true] at hread
    obtain ⟨⟨hplain, hsteps⟩, -⟩ := hread
    have hload : Loaded.ofText "a.yaml" repeatedModuleText = .ok (Loaded.ofRoot n) :=
      Loaded.ofText_eq_ofRoot hroot hsteps
    exact ⟨n, _, hroot, hplain, hload, entries_reportOf_of_isPlain none _ hroot hplain hload⟩
  next => cases hread

end Lint

end EntityGraph
