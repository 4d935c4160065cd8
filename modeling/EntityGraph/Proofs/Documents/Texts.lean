import EntityGraph.Documents
import EntityGraph.Proofs.Yaml.PlainNodes

/-!
# Documents in texts

What is loaded from a text that holds a node tree: the value of the tree, where null is read as the
empty mapping, and the source map of the tree. Both come from the same tree. A file is loaded as the
text that its bytes encode, and what it holds can be tested.
-/

namespace EntityGraph

open Yaml

namespace Loaded

variable {origin text : Text} {n : Node} {l : Loaded}

/-- What a text with a node tree is loaded as, if every scalar in it has a value. -/
def ofRoot (n : Node) : Loaded := ⟨orEmpty (n.draft firstLabel).value, n.sourceMap⟩

theorem sourceMap_of_rootOf? (hroot : rootOf? text = .ok (some n)) :
    Yaml.sourceMap text = .ok n.sourceMap := by
  rw [Yaml.sourceMap, hroot]

theorem read_of_rootOf? (hroot : rootOf? text = .ok (some n)) :
    Yaml.read text = (n.value? firstLabel).map orEmpty := by
  rw [Yaml.read, hroot]
  change (n.value? firstLabel >>= fun v ↦ .ok (orEmpty v)) = _
  cases n.value? firstLabel with
  | error f => rfl
  | ok v => rfl

/-- The document and the source map of a text belong to one tree. -/
theorem eq_ofRoot_of_ofText (hroot : rootOf? text = .ok (some n))
    (h : ofText origin text = .ok l) : l = ofRoot n := by
  rw [ofText, documentOf, read_of_rootOf? hroot, sourceMap_of_rootOf? hroot] at h
  cases hvalue : n.value? firstLabel with
  | error f =>
    rw [hvalue] at h
    cases h
  | ok v =>
    rw [hvalue] at h
    cases h
    rw [ofRoot, Draft.eq_value_of_outcome hvalue]

/-- A text whose tree is read without a step that could fail is loaded. -/
theorem ofText_eq_ofRoot (hroot : rootOf? text = .ok (some n))
    (hsteps : ∀ s ∈ (n.draft firstLabel).steps, s.2.isSure = true) :
    ofText origin text = .ok (ofRoot n) := by
  rw [ofText, documentOf, read_of_rootOf? hroot, sourceMap_of_rootOf? hroot, Node.value?,
    Draft.outcome_eq_ok hsteps]
  rfl

/-- A text whose flaw keeps it from having a tree is not loaded. -/
theorem ofText_eq_flawed {f : Failure} (hroot : rootOf? text = .error f) (hflaw : f.isFlaw = true) :
    ofText origin text = .error (.flawed origin text f) := by
  rw [ofText, documentOf, Yaml.read, hroot]
  change Except.error (LoadError.ofFailure origin text f) = _
  rw [LoadError.ofFailure, if_pos hflaw]

/-- Whether bytes are a text with a node tree in which every step is sure and of which the document
passes a test. -/
def isTextOf (test : Value → Bool) (bytes : List UInt8) : Bool :=
  match Text.Utf8.decode bytes with
  | .error _ => false
  | .ok cs =>
    match rootOf? (.ofChars (Text.unifyLineEnds cs)) with
    | .ok (some n) => (n.draft firstLabel).steps.all (·.2.isSure) && test (ofRoot n).document
    | _ => false

/-- Such bytes are loaded from any file as a document that passes the test. -/
theorem exists_ofBytes_of_isTextOf {test : Value → Bool} {bytes : List UInt8}
    (h : isTextOf test bytes = true) (p : Files.Path) :
    ∃ l, ofBytes p bytes = .ok l ∧ test l.document = true := by
  rw [isTextOf] at h
  split at h
  next => cases h
  next cs hdecoded =>
    split at h
    next n hroot =>
      rw [Bool.and_eq_true, List.all_eq_true] at h
      refine ⟨ofRoot n, ?_, h.2⟩
      rw [ofBytes, hdecoded]
      exact ofText_eq_ofRoot hroot h.1
    next => cases h

/-- Whether bytes are a text that some flaw keeps from having a node tree. -/
def isFlawedBy (f : Failure) (bytes : List UInt8) : Bool :=
  match Text.Utf8.decode bytes with
  | .error _ => false
  | .ok cs =>
    match rootOf? (.ofChars (Text.unifyLineEnds cs)) with
    | .ok _ => false
    | .error f' => f'.isFlaw && f' = f

/-- Such bytes are loaded from no file, and it is told which flaw their text has. -/
theorem exists_ofBytes_of_isFlawedBy {f : Failure} {bytes : List UInt8}
    (h : isFlawedBy f bytes = true) (p : Files.Path) :
    ∃ text, ofBytes p bytes = .error (.flawed p.text text f) := by
  rw [isFlawedBy] at h
  split at h
  next => cases h
  next cs hdecoded =>
    split at h
    next => cases h
    next f' hroot =>
      rw [Bool.and_eq_true, decide_eq_true_iff] at h
      obtain ⟨hflaw, rfl⟩ := h
      refine ⟨.ofChars (Text.unifyLineEnds cs), ?_⟩
      rw [ofBytes, hdecoded]
      exact ofText_eq_flawed hroot hflaw

section

variable {t : Files.Tree} {p : Files.Path} {bytes : List UInt8}

theorem ofFile_of_isReadable (h : t.isReadable p = true) : ofFile t p bytes = ofBytes p bytes :=
  if_pos h

/-- A document that was read from a file is that of its bytes. -/
theorem ofBytes_of_ofFile (h : ofFile t p bytes = .ok l) : ofBytes p bytes = .ok l := by
  rw [ofFile] at h
  split at h
  next => exact h
  next => cases h

end

end Loaded

end EntityGraph
