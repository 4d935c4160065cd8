import EntityGraph.Check.Structure
import EntityGraph.Proofs.Model.Entries
import EntityGraph.Proofs.Schema.ProjectDocuments

/-!
# Violations that can be told

A violation is told with the values it is about and with the keys on the way to it, and so it cannot
be told where one of these holds a number without a text, or where it is about a reference of the
schema that leads nowhere. The references of the schema of project documents all lead somewhere, and
its own values have texts. What remains are the numbers of the document: the structure of a document
is told unless one of them has too many digits.
-/

namespace EntityGraph

/-! ## Texts of parts -/

namespace Value

theorem areWritable_iff {vs : List Value} :
    areWritable vs = true ↔ ∀ v ∈ vs, v.isWritable = true := by
  induction vs with
  | nil => simp [areWritable]
  | cons v vs ih => rw [areWritable, Bool.and_eq_true, ih, List.forall_mem_cons]

theorem entriesWritable_iff {entries : List (Value × Value)} :
    entriesWritable entries = true ↔
      ∀ e ∈ entries, e.1.isWritable = true ∧ e.2.isWritable = true := by
  induction entries with
  | nil => simp [entriesWritable]
  | cons e entries ih =>
    obtain ⟨key, v⟩ := e
    rw [entriesWritable, Bool.and_eq_true, Bool.and_eq_true, ih, List.forall_mem_cons]

end Value

namespace Schema

/-! ## Schemas that bring no number without a text -/

mutual

/-- Whether all values that a schema brings into its violations have texts. -/
def isTellable : Schema → Bool
  | .all keywords _ => areTellable keywords
  | _ => true
termination_by structural s => s

/-- Whether all values of a keyword have texts: those it lists, and the alternatives that it names
as they are written. -/
def isTellableKeyword : Keyword → Bool
  | .properties members => areTellableMembers members
  | .others _ rest => isTellable rest
  | .oneOfValues values => Value.areWritable values
  | .constant value => value.isWritable
  | .oneOf branches => areTellableBranches branches
  | .allOf branches => areTellableBranches branches
  | .conditional condition yes no =>
    isTellable condition && isTellableOption yes && isTellableOption no
  | .type _ | .required _ => true
termination_by structural k => k

def areTellable : List Keyword → Bool
  | [] => true
  | k :: rest => isTellableKeyword k && areTellable rest
termination_by structural ks => ks

def areTellableMembers : List (Text × Schema) → Bool
  | [] => true
  | (_, s) :: rest => isTellable s && areTellableMembers rest
termination_by structural members => members

def areTellableBranches : List Schema → Bool
  | [] => true
  | s :: rest => s.source.isWritable && isTellable s && areTellableBranches rest
termination_by structural ss => ss

def isTellableOption : Option Schema → Bool
  | none => true
  | some s => isTellable s
termination_by structural o => o

end

theorem areTellableBranches_iff {ss : List Schema} :
    areTellableBranches ss = true ↔
      ∀ s ∈ ss, s.source.isWritable = true ∧ s.isTellable = true := by
  induction ss with
  | nil => simp [areTellableBranches]
  | cons s ss ih =>
    rw [areTellableBranches, Bool.and_eq_true, Bool.and_eq_true, ih, List.forall_mem_cons]

/-- Definitions whose references all lead to schemas that bring no number without a text. -/
def Definitions.AreTellable (defs : Definitions) : Prop :=
  ∀ e ∈ defs, ∃ s, e.2 = .ok s ∧ s.isTellable = true

/-! ## Told violations -/

/-- Whether a violation can be told under a condition: without it there may be a number that has no
text. -/
structure Violation.IsTold (condition : Prop) (x : Violation) : Prop where
  fault : ∀ fault, x.cause.fault? = some fault → fault = .numberTooLong ∧ ¬ condition
  path : condition → Value.areWritable x.path = true

variable {condition : Prop} {defs : Definitions}

theorem not_of_numberFault {isWritable : Bool} {fault : Fault}
    (hfault : Cause.fault?.numberFault isWritable = some fault)
    (h : condition → Cause.fault?.numberFault isWritable = none) :
    fault = .numberTooLong ∧ ¬ condition := by
  refine ⟨?_, fun hc ↦ ?_⟩
  · cases isWritable with
    | true => cases hfault
    | false => exact (Option.some.inj hfault).symm
  · rw [h hc] at hfault
    cases hfault

/-- A violation here is told if it is about no reference that leads nowhere, and if the condition
promises a text for whatever it is about. -/
theorem isTold_here {cause : Cause} (hreference : ∀ p, cause ≠ .unresolved p)
    (h : condition → cause.fault? = none) : ∀ x ∈ here cause, x.IsTold condition := by
  rw [here, List.forall_mem_singleton]
  refine ⟨fun fault hfault ↦ ?_, fun _ ↦ rfl⟩
  cases cause with
  | unresolved p => exact absurd rfl (hreference p)
  | missingKey key => cases hfault
  | _ => exact not_of_numberFault hfault h

/-- The same for a finding that is made only where a test fails. -/
theorem isTold_ite_here {test : Prop} [Decidable test] {cause : Cause}
    (hreference : ∀ p, cause ≠ .unresolved p) (h : condition → cause.fault? = none) :
    ∀ x ∈ (if test then [] else here cause), x.IsTold condition := by
  by_cases htest : test
  · rw [if_pos htest]
    exact fun x hx ↦ absurd hx List.not_mem_nil
  · rw [if_neg htest]
    exact isTold_here hreference h

/-- A violation at a value is told if the value is. -/
theorem isTold_under {key : Value} {vs : List Violation}
    (hkey : condition → key.isWritable = true) (h : ∀ x ∈ vs, x.IsTold condition) :
    ∀ x ∈ under key vs, x.IsTold condition := by
  rw [under]
  by_cases hnull : key.isNull = true
  · rw [if_pos hnull]
    exact h
  · rw [if_neg hnull, List.forall_mem_map]
    intro x hx
    refine ⟨(h x hx).fault, fun hc ↦ ?_⟩
    rw [Value.areWritable, hkey hc, (h x hx).path hc]
    rfl

theorem isTold_underKey {key : Value} {s : Schema} {vs : List Violation}
    (hkey : condition → key.isWritable = true) (h : ∀ x ∈ vs, x.IsTold condition) :
    ∀ x ∈ underKey key s vs, x.IsTold condition := by
  cases s with
  | always accepts => exact h
  | reference target source => exact isTold_under hkey h
  | all ks source => exact isTold_under hkey h

theorem areWritable_undeclaredKeys {declared : List Text} {entries : List (Value × Value)}
    (h : Value.entriesWritable entries = true) :
    Value.areWritable (undeclaredKeys declared entries) = true := by
  rw [Value.areWritable_iff]
  intro key hkey
  rw [undeclaredKeys, List.mem_mergeSort] at hkey
  obtain ⟨e, he, rfl⟩ := List.mem_map.mp (List.mem_filter.mp hkey).1
  exact (Value.entriesWritable_iff.mp h e he).1

/-! ## Alternatives -/

section Alternatives

variable {v : Value} {branches : List (Schema × List Violation)}

theorem isTold_chooseLater {first : Schema} {met : List Schema}
    (hv : condition → v.isWritable = true)
    (hmet : ∀ s ∈ met ++ [first], s.source.isWritable = true)
    (h : ∀ b ∈ branches, b.1.source.isWritable = true ∧ ∀ x ∈ b.2, x.IsTold condition) :
    ∀ x ∈ chooseLater v first met branches, x.IsTold condition := by
  induction branches generalizing met with
  | nil =>
    rw [chooseLater]
    by_cases hnone : met.isEmpty = true
    · rw [if_pos hnone]
      exact fun x hx ↦ absurd hx List.not_mem_nil
    · rw [if_neg hnone]
      refine isTold_here (fun p hp ↦ by cases hp) fun hc ↦ ?_
      have hsources : Value.areWritable ((met ++ [first]).map source) = true := by
        rw [Value.areWritable_iff, List.forall_mem_map]
        exact hmet
      rw [Cause.fault?, hv hc, hsources]
      rfl
  | cons b branches ih =>
    obtain ⟨s, vs⟩ := b
    obtain ⟨⟨hs, hvs⟩, hrest⟩ := List.forall_mem_cons.mp h
    cases vs with
    | nil =>
      rw [chooseLater]
      refine ih (fun t ht ↦ ?_) hrest
      simp only [List.mem_append, List.mem_singleton] at ht hmet
      rcases ht with (ht | rfl) | rfl
      · exact hmet t (Or.inl ht)
      · exact hs
      · exact hmet t (Or.inr rfl)
    | cons found later =>
      rw [chooseLater]
      by_cases hbreak : found.breaksOff = true
      · rw [if_pos hbreak, List.forall_mem_singleton]
        exact hvs found List.mem_cons_self
      · rw [if_neg hbreak]
        exact ih hmet hrest

theorem isTold_choose (hv : condition → v.isWritable = true)
    (h : ∀ b ∈ branches, b.1.source.isWritable = true ∧ ∀ x ∈ b.2, x.IsTold condition) :
    ∀ x ∈ choose v branches, x.IsTold condition := by
  induction branches with
  | nil =>
    rw [choose]
    refine isTold_here (fun p hp ↦ by cases hp) fun hc ↦ ?_
    rw [Cause.fault?, hv hc]
    rfl
  | cons b branches ih =>
    obtain ⟨s, vs⟩ := b
    obtain ⟨⟨hs, hvs⟩, hrest⟩ := List.forall_mem_cons.mp h
    cases vs with
    | nil =>
      rw [choose]
      exact isTold_chooseLater hv (by simpa using hs) hrest
    | cons found later =>
      rw [choose]
      split
      next broken hbroken =>
        rw [List.forall_mem_singleton]
        exact hvs broken (List.mem_of_find?_eq_some hbroken)
      next => exact ih hrest
      all_goals simp

end Alternatives

/-! ## Checks -/

mutual

/-- A check finds only violations that can be told, if its schemas bring no number without a text
and the value has a text. -/
theorem isTold_check (hdefs : defs.AreTellable) (budget : Nat) (s : Schema) (v : Value)
    (hs : s.isTellable = true) (hv : condition → v.isWritable = true) :
    ∀ x ∈ check defs budget s v, x.IsTold condition := by
  cases s with
  | always accepts =>
    rw [check]
    cases accepts with
    | true => exact fun x hx ↦ absurd hx List.not_mem_nil
    | false =>
      refine isTold_here (fun p hp ↦ by cases hp) fun hc ↦ ?_
      rw [Cause.fault?, hv hc]
      rfl
  | reference target source =>
    cases budget with
    | zero =>
      rw [check]
      exact fun x hx ↦ absurd hx List.not_mem_nil
    | succ budget =>
      rw [check]
      split
      next t ht =>
        -- What a reference leads to is one of the definitions, and these can all be told.
        obtain ⟨before, after, hsplit, -⟩ := List.lookup_eq_some_iff.mp ht
        obtain ⟨t', ht', htellable⟩ := hdefs (target, .ok t) (by rw [hsplit]; simp)
        cases ht'
        exact isTold_check hdefs budget t v htellable hv
      next p hp =>
        obtain ⟨before, after, hsplit, -⟩ := List.lookup_eq_some_iff.mp hp
        obtain ⟨t', ht', -⟩ := hdefs (target, .error p) (by rw [hsplit]; simp)
        cases ht'
      next => exact fun x hx ↦ absurd hx List.not_mem_nil
  | all ks source =>
    rw [check]
    exact isTold_checkAll hdefs budget ks v hs hv
termination_by (sizeOf v, budget, sizeOf s)

theorem isTold_checkAll (hdefs : defs.AreTellable) (budget : Nat) (ks : List Keyword) (v : Value)
    (hks : areTellable ks = true) (hv : condition → v.isWritable = true) :
    ∀ x ∈ checkAll defs budget ks v, x.IsTold condition := by
  cases ks with
  | nil =>
    rw [checkAll]
    exact fun x hx ↦ absurd hx List.not_mem_nil
  | cons k rest =>
    rw [areTellable, Bool.and_eq_true] at hks
    rw [checkAll, List.forall_mem_append]
    exact ⟨isTold_checkKeyword hdefs budget k v hks.1 hv,
      isTold_checkAll hdefs budget rest v hks.2 hv⟩
termination_by (sizeOf v, budget, sizeOf ks)

theorem isTold_checkKeyword (hdefs : defs.AreTellable) (budget : Nat) (k : Keyword) (v : Value)
    (hk : isTellableKeyword k = true) (hv : condition → v.isWritable = true) :
    ∀ x ∈ checkKeyword defs budget k v, x.IsTold condition := by
  have hnil : ∀ x ∈ ([] : List Violation), x.IsTold condition :=
    fun x hx ↦ absurd hx List.not_mem_nil
  cases k with
  | type names =>
    rw [checkKeyword]
    refine isTold_ite_here (fun p hp ↦ by cases hp) fun hc ↦ ?_
    rw [Cause.fault?, hv hc]
    rfl
  | required keys =>
    cases v with
    | map entries =>
      rw [checkKeyword, List.forall_mem_flatMap]
      exact fun key _ ↦ isTold_ite_here (fun p hp ↦ by cases hp) fun _ ↦ rfl
    | _ => rw [checkKeyword]; exact hnil; all_goals simp
  | properties members =>
    cases v with
    | map entries =>
      rw [checkKeyword]
      exact isTold_checkMembers hdefs members entries hk hv
    | _ => rw [checkKeyword]; exact hnil; all_goals simp
  | others declared rest =>
    cases v with
    | map entries =>
      have hothers := isTold_checkOthers hdefs declared rest entries hk hv
      rw [checkKeyword.eq_def]
      dsimp only
      split
      next => exact hnil
      next => exact hnil
      next =>
        refine isTold_here (fun p hp ↦ by cases hp) fun hc ↦ ?_
        rw [Cause.fault?, areWritable_undeclaredKeys (hv hc)]
        rfl
      next => exact hothers
    | _ => rw [checkKeyword]; exact hnil; all_goals simp
  | oneOfValues values =>
    rw [checkKeyword]
    refine isTold_ite_here (fun p hp ↦ by cases hp) fun hc ↦ ?_
    have hvalues : Value.areWritable values = true := hk
    rw [Cause.fault?, hv hc, hvalues]
    rfl
  | constant value =>
    rw [checkKeyword]
    refine isTold_ite_here (fun p hp ↦ by cases hp) fun _ ↦ ?_
    have hvalue : value.isWritable = true := hk
    rw [Cause.fault?, hvalue]
    rfl
  | oneOf branches =>
    rw [checkKeyword]
    refine isTold_choose hv fun b hb ↦ ?_
    obtain ⟨hsource, hfound⟩ := List.of_mem_zip hb
    exact ⟨(areTellableBranches_iff.mp hk b.1 hsource).1,
      isTold_checkEach hdefs budget branches v hk hv b.2 hfound⟩
  | allOf branches =>
    rw [checkKeyword]
    intro x hx
    obtain ⟨vs, hvs, hx⟩ := List.mem_flatten.mp hx
    exact isTold_checkEach hdefs budget branches v hk hv vs hvs x hx
  | conditional c yes no =>
    rw [isTellableKeyword, Bool.and_eq_true, Bool.and_eq_true] at hk
    obtain ⟨⟨hcondition, hyes⟩, hno⟩ := hk
    have hfound := isTold_check hdefs budget c v hcondition hv
    rw [checkKeyword.eq_def]
    dsimp only
    split
    next =>
      cases yes with
      | none => exact hnil
      | some s => exact isTold_check hdefs budget s v hyes hv
    -- The first violation of the condition is handed on only where it breaks the check off.
    next found rest hc =>
      by_cases hbreak : found.breaksOff = true
      · rw [if_pos hbreak, List.forall_mem_singleton]
        exact hfound found (by rw [hc]; exact List.mem_cons_self)
      · rw [if_neg hbreak]
        cases no with
        | none => exact hnil
        | some s => exact isTold_check hdefs budget s v hno hv
termination_by (sizeOf v, budget, sizeOf k)

theorem isTold_checkEach (hdefs : defs.AreTellable) (budget : Nat) (ss : List Schema) (v : Value)
    (hss : areTellableBranches ss = true) (hv : condition → v.isWritable = true) :
    ∀ vs ∈ checkEach defs budget ss v, ∀ x ∈ vs, x.IsTold condition := by
  cases ss with
  | nil =>
    rw [checkEach]
    exact fun vs hvs ↦ absurd hvs List.not_mem_nil
  | cons s rest =>
    rw [areTellableBranches, Bool.and_eq_true, Bool.and_eq_true] at hss
    rw [checkEach, List.forall_mem_cons]
    exact ⟨isTold_check hdefs budget s v hss.1.2 hv, isTold_checkEach hdefs budget rest v hss.2 hv⟩
termination_by (sizeOf v, budget, sizeOf ss)

theorem isTold_checkMembers (hdefs : defs.AreTellable) (members : List (Text × Schema))
    (entries : List (Value × Value)) (hmembers : areTellableMembers members = true)
    (hentries : condition → Value.entriesWritable entries = true) :
    ∀ x ∈ checkMembers defs members entries, x.IsTold condition := by
  cases members with
  | nil =>
    rw [checkMembers]
    exact fun x hx ↦ absurd hx List.not_mem_nil
  | cons m rest =>
    obtain ⟨key, s⟩ := m
    rw [areTellableMembers, Bool.and_eq_true] at hmembers
    rw [checkMembers, List.forall_mem_append]
    refine ⟨?_, isTold_checkMembers hdefs rest entries hmembers.2 hentries⟩
    split
    next w hw =>
      have hlt := sizeOf_lookup_lt hw
      have hwritable : condition → w.isWritable = true :=
        fun hc ↦ (Value.entriesWritable_iff.mp (hentries hc) _ (Value.mem_of_lookup hw)).2
      exact isTold_underKey (fun _ ↦ rfl)
        (isTold_check hdefs defs.length s w hmembers.1 hwritable)
    next => exact fun x hx ↦ absurd hx List.not_mem_nil
termination_by (sizeOf entries, 0, sizeOf members)

theorem isTold_checkOthers (hdefs : defs.AreTellable) (declared : List Text) (s : Schema)
    (entries : List (Value × Value)) (hs : s.isTellable = true)
    (hentries : condition → Value.entriesWritable entries = true) :
    ∀ x ∈ checkOthers defs declared s entries, x.IsTold condition := by
  match entries, hentries with
  | [], _ =>
    rw [checkOthers]
    exact fun x hx ↦ absurd hx List.not_mem_nil
  | (key, w) :: rest, hentries =>
    have hparts (hc : condition) := List.forall_mem_cons.mp
      (Value.entriesWritable_iff.mp (hentries hc))
    rw [checkOthers, List.forall_mem_append]
    refine ⟨?_, isTold_checkOthers hdefs declared s rest hs fun hc ↦
      Value.entriesWritable_iff.mpr (hparts hc).2⟩
    by_cases hdeclared : (declared.any fun name ↦ key.same (.str name)) = true
    · rw [if_pos hdeclared]
      exact fun x hx ↦ absurd hx List.not_mem_nil
    · rw [if_neg hdeclared]
      exact isTold_underKey (fun hc ↦ (hparts hc).1.1)
        (isTold_check hdefs defs.length s w hs fun hc ↦ (hparts hc).1.2)
termination_by (sizeOf entries, 0, 0)

end

/-! ## Structure of documents -/

theorem faultOf?_of_isTold {vs : List Violation} {fault : Fault}
    (h : ∀ x ∈ vs, x.IsTold condition) (hfault : faultOf? vs = some fault) :
    fault = .numberTooLong ∧ ¬ condition := by
  rw [faultOf?] at hfault
  split at hfault
  next found hfound =>
    cases hfault
    obtain ⟨x, hx, hcause⟩ := List.exists_of_findSome?_eq_some hfound
    exact (h x hx).fault fault hcause
  next =>
    split at hfault
    next => cases hfault
    next hpaths =>
      refine ⟨(Option.some.inj hfault).symm, fun hc ↦ hpaths ?_⟩
      exact List.all_eq_true.mpr fun x hx ↦ (h x hx).path hc

/-- Where there is no fault, no violation breaks the telling off. -/
theorem breaksOff_eq_false_of_faultOf? {vs : List Violation} (h : faultOf? vs = none) :
    ∀ x ∈ vs, x.breaksOff = false := by
  intro x hx
  rw [faultOf?] at h
  split at h
  next => cases h
  next hnone =>
    rw [Violation.breaksOff, List.findSome?_eq_none_iff.mp hnone x hx]
    rfl

theorem exists_definition_of_mem_referencesIn : ∀ t ∈ referencesIn projectSchema,
    ∃ e ∈ projectDefinitions, t = "#/definitions/" ++ e.1 := by
  decide +kernel

theorem isTellable_definition : ∀ e ∈ projectDefinitions, (ofValue e.2).isTellable = true := by
  decide +kernel

theorem areTellable_projectReferences : projectReferences.AreTellable := by
  intro e he
  rw [projectReferences, definitionsOf] at he
  obtain ⟨t, ht, rfl⟩ := List.mem_map.mp he
  obtain ⟨d, hd, rfl⟩ := exists_definition_of_mem_referencesIn t (List.mem_eraseDups.mp ht)
  exact ⟨ofValue d.2, by rw [resolve_definition d hd]; rfl, isTellable_definition d hd⟩

/-- The structure of a mapping is told, one issue for each violation, unless a number in it has no
text. -/
theorem settles_structureIssues {document : Value} (hmap : document.isMap = true) :
    Settles (document.isWritable = true)
      (fun issues ↦ ∀ x ∈ violations projectSchema document,
        x.breaksOff = false ∧ x.issue ∈ issues)
      (structureIssues projectSchema document) := by
  have htellable : (ofValue projectSchema).isTellable = true := by decide +kernel
  have htold : ∀ x ∈ violations projectSchema document, x.IsTold (document.isWritable = true) :=
    isTold_check areTellable_projectReferences _ _ document htellable id
  rw [structureIssues, if_pos hmap]
  dsimp only
  cases hfault : faultOf? (violations projectSchema document) with
  | some fault => exact faultOf?_of_isTold htold hfault
  | none =>
    intro x hx
    exact ⟨breaksOff_eq_false_of_faultOf? hfault x hx,
      List.mem_map_of_mem (List.mem_mergeSort.mpr hx)⟩

end Schema

end EntityGraph
