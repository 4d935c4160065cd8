import EntityGraph.Proofs.Check.WrittenProjects
import EntityGraph.Proofs.Documents.Texts

/-!
# Histories of a reader

A reader is called again and again while its files come, change and go. What it keeps depends on the
order of all this, but what it answers can be said from the history alone: a file that is there is
loaded as the bytes it had when its document was first read since the reader was last cleared; if
that never happened, or if the reader keeps nothing, it is read as it is, which fails if it is
closed. A document has been read as soon as it was loaded, also when no project could be made of it.

The history is a list of readings beside the reader. The invariant is that the reader keeps of every
path what the first reading of that path gave. One lemma says what a call does to it, and the rest
follows for every course of events.
-/

namespace EntityGraph

namespace Reader

/-! ## Calls -/

/-- What a load is made for: the document of a file with its source map, the document alone, or its
project. -/
inductive View where
  | whole
  | document
  | project

/-- What a reader can be asked for. -/
inductive Call where
  | load (view : View) (file : Text)
  /-- The document in a text. -/
  | readText (text : Text)
  | clear

/-- What a reader answers. -/
inductive Answer where
  | loaded (x : Except LoadError Loaded)
  | document (x : Except LoadError Value)
  | project (x : Except ProjectError (Option (Project Entity)))
  | cleared

namespace Answer

/-- Whether an answer is an error. -/
def raises : Answer → Bool
  | .loaded (.error _) | .document (.error _) | .project (.error _) => true
  | _ => false

/-- Whether a document was read before the answer was given. -/
def hasDocument : Answer → Bool
  | .loaded (.ok _) | .document (.ok _) | .project (.ok _) | .project (.error (.fault _)) => true
  | _ => false

end Answer

/-- The project of what was loaded. -/
def projectOf : Except LoadError Loaded → Except ProjectError (Option (Project Entity))
  | .error e => .error (.load e)
  | .ok l => (Project.load l.document).answer.mapError .fault

/-- What is answered to a load, given what was loaded. -/
def View.answer : View → Except LoadError Loaded → Answer
  | .whole, x => .loaded x
  | .document, x => .document (x.map Loaded.document)
  | .project, x => .project (projectOf x)

/-- Calls a reader: what it answers, and the reader after that. -/
def call (r : Reader) (t : Files.Tree) : Call → Answer × Reader
  | .load .project file => (r.loadProject t file).value.map .project id
  | .load view file => (r.load t (.ofText file)).value.map view.answer id
  | .readText text => (.document (Loaded.documentOf "<string>" text), r)
  | .clear => (.cleared, r.clear.value)

/-- What is answered to a call, given what is loaded from each path. -/
def answerOf (load : Files.Path → Except LoadError Loaded) : Call → Answer
  | .load view file => view.answer (load (.ofText file))
  | .readText text => .document (Loaded.documentOf "<string>" text)
  | .clear => .cleared

section

variable (r : Reader) (t : Files.Tree)

/-- A project is made of what a load gives, and nothing more is kept. -/
theorem loadProject_value (file : Text) :
    (r.loadProject t file).value = (r.load t (.ofText file)).value.map projectOf id := by
  rw [loadProject, Logged.bind_value]
  cases (r.load t (.ofText file)).value with
  | mk x r' =>
    cases x with
    | error e => rfl
    | ok l =>
      change (Logged.value ((Project.load l.document).outcome >>= _)) = _
      rw [Logged.bind_value, Prod.map, projectOf, Query.answer]
      cases (Project.load l.document).outcome.value with
      | error f => rfl
      | ok project => cases project <;> rfl

/-- Every view is one of a load, and what is kept does not depend on it. -/
theorem call_load (view : View) (file : Text) :
    r.call t (.load view file) = (r.load t (.ofText file)).value.map view.answer id := by
  cases view with
  | whole | document => rfl
  | project =>
    rw [call, loadProject_value]
    rfl

theorem call_answer (c : Call) :
    (r.call t c).1 = answerOf (fun p ↦ (r.load t p).value.1) c := by
  cases c with
  | load view file =>
    rw [call_load]
    rfl
  | readText text | clear => rfl

end

/-- Whether a document was read does not depend on what the load was made for. -/
theorem View.hasDocument_answer (view : View) (x : Except LoadError Loaded) :
    (view.answer x).hasDocument = x.isOk := by
  cases view with
  | whole | document => cases x <;> rfl
  | project =>
    cases x with
    | error e => rfl
    | ok l =>
      rw [answer, projectOf]
      cases (Project.load l.document).answer <;> rfl

/-! ## Loads -/

/-- The bytes of the file under a path, or why there are none. -/
def bytesAt (t : Files.Tree) (p : Files.Path) : Except LoadError (List UInt8) :=
  match t.find p with
  | .error e => .error (.noAccess e)
  | .ok none => .error (.notFound p)
  | .ok (some (.file bytes)) => .ok bytes
  | .ok (some _) => .error (.notAFile p)

section

variable {r : Reader} {t : Files.Tree} {p q : Files.Path} {bytes : List UInt8} {l : Loaded}

/-- What a load gives and leaves: an error where there is no file, what is kept of a file, or what
is read of it, which is then kept unless it is an error. -/
inductive Loads (r : Reader) (t : Files.Tree) (p : Files.Path) :
    Except LoadError Loaded × Reader → Prop
  | absent {e : LoadError} (hbytes : bytesAt t p = .error e) : Loads r t p (.error e, r)
  | kept {bytes : List UInt8} {l : Loaded} (hbytes : bytesAt t p = .ok bytes)
    (hkept : r.kept? p = some l) : Loads r t p (.ok l, r)
  | read {bytes : List UInt8} {l : Loaded} (hbytes : bytesAt t p = .ok bytes)
    (hkept : r.kept? p = none) (hread : Loaded.ofFile t p bytes = .ok l) :
    Loads r t p (.ok l, r.keep p l)
  | flawed {bytes : List UInt8} {e : LoadError} (hbytes : bytesAt t p = .ok bytes)
    (hkept : r.kept? p = none) (hread : Loaded.ofFile t p bytes = .error e) :
    Loads r t p (.error e, r)

theorem loads (r : Reader) (t : Files.Tree) (p : Files.Path) :
    Loads r t p (r.load t p).value := by
  cases hfind : t.find p with
  | error e =>
    have hvalue : (r.load t p).value = (.error (.noAccess e), r) := by simp [load, hfind]
    rw [hvalue]
    exact .absent (by rw [bytesAt, hfind])
  | ok found =>
    match found with
    | none =>
      have hvalue : (r.load t p).value = (.error (.notFound p), r) := by simp [load, hfind]
      rw [hvalue]
      exact .absent (by rw [bytesAt, hfind])
    | some (.directory entries) | some .device =>
      have hvalue : (r.load t p).value = (.error (.notAFile p), r) := by simp [load, hfind]
      rw [hvalue]
      exact .absent (by rw [bytesAt, hfind])
    | some (.file bytes) =>
      have hbytes : bytesAt t p = .ok bytes := by rw [bytesAt, hfind]
      cases hkept : r.kept? p with
      | some l =>
        have hvalue : (r.load t p).value = (.ok l, r) := by simp [load, hfind, hkept]
        rw [hvalue]
        exact .kept hbytes hkept
      | none =>
        cases hread : Loaded.ofFile t p bytes with
        | error e =>
          have hvalue : (r.load t p).value = (.error e, r) := by simp [load, hfind, hkept, hread]
          rw [hvalue]
          exact .flawed hbytes hkept hread
        | ok l =>
          have hvalue : (r.load t p).value = (.ok l, r.keep p l) := by
            simp [load, hfind, hkept, hread]
          rw [hvalue]
          exact .read hbytes hkept hread

theorem load_of_bytesAt_error {e : LoadError} (h : bytesAt t p = .error e) :
    (r.load t p).value = (.error e, r) := by
  have hloads := loads r t p
  generalize (r.load t p).value = x at hloads ⊢
  cases hloads with
  | absent hbytes =>
    cases h.symm.trans hbytes
    rfl
  | kept hbytes | read hbytes | flawed hbytes => cases h.symm.trans hbytes

theorem load_of_ofFile (hbytes : bytesAt t p = .ok bytes) (hkept : r.kept? p = none)
    (hread : Loaded.ofFile t p bytes = .ok l) : (r.load t p).value = (.ok l, r.keep p l) := by
  have h := loads r t p
  generalize (r.load t p).value = x at h ⊢
  cases h with
  | absent hbytes' => cases hbytes.symm.trans hbytes'
  | kept hbytes' hkept' => cases hkept.symm.trans hkept'
  | read hbytes' hkept' hread' =>
    cases hbytes.symm.trans hbytes'
    cases hread.symm.trans hread'
    rfl
  | flawed hbytes' hkept' hread' =>
    cases hbytes.symm.trans hbytes'
    cases hread.symm.trans hread'

variable {x : Except LoadError Loaded × Reader}

theorem keep_caching : (r.keep p l).caching = r.caching := by
  rw [keep]
  split <;> rfl

theorem Loads.caching (h : Loads r t p x) : x.2.caching = r.caching := by
  cases h with
  | absent | kept | flawed => rfl
  | read => exact keep_caching

/-- A load without a document leaves the reader as it was. -/
theorem Loads.reader_of_error (h : Loads r t p x) (hx : x.1.isOk = false) : x.2 = r := by
  cases h with
  | absent | kept | flawed => rfl
  | read => cases hx

/-- A call that raises without having read a document leaves the reader as it was. -/
theorem call_reader_of_raises {c : Call} (hraises : (r.call t c).1.raises = true)
    (hdocument : (r.call t c).1.hasDocument = false) : (r.call t c).2 = r := by
  cases c with
  | load view file =>
    rw [call_load] at hdocument ⊢
    exact (loads ..).reader_of_error ((view.hasDocument_answer _).symm.trans hdocument)
  | readText text => rfl
  | clear => cases hraises

theorem kept?_keep :
    (r.keep p l).kept? q = if r.caching ∧ q = p then some l else r.kept? q := by
  cases hcaching : r.caching with
  | true =>
    by_cases hq : q = p
    · simp [keep, kept?, hcaching, hq]
    · simp [keep, kept?, hcaching, hq, List.lookup_cons, beq_false_of_ne hq]
  | false => simp [keep, kept?, hcaching]

end

end Reader

open Reader

/-! ## Courses of events -/

/-- What happens to the files and to the reader. -/
inductive Event where
  | write (p : Files.Path) (bytes : List UInt8)
  | delete (p : Files.Path)
  | call (c : Reader.Call)

/-- The files, the reader, and the files whose documents were read since the reader was last
cleared, in this order and with the bytes they had. -/
structure Course where
  tree : Files.Tree
  reader : Reader
  readings : List (Files.Path × List UInt8) := []

namespace Course

/-- The start with a new reader. -/
def start (t : Files.Tree) (caching : Bool) : Course := { tree := t, reader := { caching } }

/-- The readings after an answer to a load: one more if a document has been read. -/
def readingsWith (s : Course) (p : Files.Path) (a : Answer) : List (Files.Path × List UInt8) :=
  if a.hasDocument then s.readings ++ ((bytesAt s.tree p).toOption.map (p, ·)).toList
  else s.readings

/-- The readings after a call. -/
def readingsAfter (s : Course) (c : Reader.Call) (a : Answer) : List (Files.Path × List UInt8) :=
  match c with
  | .load _ file => s.readingsWith (.ofText file) a
  | .readText _ => s.readings
  | .clear => []

/-- What an event does. -/
def step (s : Course) : Event → Course
  | .write p bytes => { s with tree := s.tree.put p (.file bytes) }
  | .delete p => { s with tree := s.tree.remove p }
  | .call c =>
    let answered := s.reader.call s.tree c
    { s with reader := answered.2, readings := s.readingsAfter c answered.1 }

/-- The course after events, one after the other. -/
def after (s : Course) (events : List Event) : Course := events.foldl step s

/-- The bytes a file had when its document was first read, as far as the reader keeps anything. -/
def first? (s : Course) (p : Files.Path) : Option (List UInt8) :=
  if s.reader.caching then s.readings.lookup p else none

/-- What is loaded from a path: if there is a file, the bytes of its first reading, or else the file
as it is. -/
def loaded (s : Course) (p : Files.Path) : Except LoadError Loaded := do
  let current ← bytesAt s.tree p
  match s.first? p with
  | some bytes => Loaded.ofBytes p bytes
  | none => Loaded.ofFile s.tree p current

theorem loaded_of_first? {s : Course} {p : Files.Path} {current bytes : List UInt8}
    (hbytes : bytesAt s.tree p = .ok current) (hfirst : s.first? p = some bytes) :
    s.loaded p = Loaded.ofBytes p bytes := by
  rw [loaded, hbytes, hfirst]
  rfl

theorem loaded_of_first?_none {s : Course} {p : Files.Path} {current : List UInt8}
    (hbytes : bytesAt s.tree p = .ok current) (hfirst : s.first? p = none) :
    s.loaded p = Loaded.ofFile s.tree p current := by
  rw [loaded, hbytes, hfirst]
  rfl

/-- The reader keeps what the first readings gave, and nothing else. -/
def IsCoherent (s : Course) : Prop :=
  ∀ p, (s.reader.kept? p).map .ok = (s.first? p).map (Loaded.ofBytes p)

section

variable {s : Course} {p q : Files.Path} {bytes : List UInt8} {l : Loaded}

theorem IsCoherent.first?_of_kept? (h : s.IsCoherent) (hkept : s.reader.kept? p = some l) :
    ∃ bytes, s.first? p = some bytes ∧ Loaded.ofBytes p bytes = .ok l := by
  have hp := h p
  rw [hkept] at hp
  exact Option.map_eq_some_iff.mp hp.symm

theorem IsCoherent.first?_of_kept?_none (h : s.IsCoherent) (hkept : s.reader.kept? p = none) :
    s.first? p = none := by
  have hp := h p
  rw [hkept] at hp
  exact Option.map_eq_none_iff.mp hp.symm

/-- A coherent reader loads what the history says. -/
theorem IsCoherent.eq_loaded (h : s.IsCoherent) {x : Except LoadError Loaded × Reader}
    (hx : Loads s.reader s.tree p x) : x.1 = s.loaded p := by
  cases hx with
  | absent hbytes => rw [loaded, hbytes]; rfl
  | kept hbytes hkept =>
    obtain ⟨bytes, hfirst, hread⟩ := h.first?_of_kept? hkept
    rw [loaded_of_first? hbytes hfirst, hread]
  | read hbytes hkept hread | flawed hbytes hkept hread =>
    rw [loaded_of_first?_none hbytes (h.first?_of_kept?_none hkept), hread]

theorem first?_append :
    { s with readings := s.readings ++ [(p, bytes)] }.first? q =
      (s.first? q).or (if s.reader.caching ∧ q = p then some bytes else none) := by
  cases hcaching : s.reader.caching with
  | true =>
    by_cases hq : q = p
    · simp [first?, hcaching, List.lookup_append, hq]
    · simp [first?, hcaching, List.lookup_append, List.lookup_cons, hq, beq_false_of_ne hq]
  | false => simp [first?, hcaching]

/-- One more reading of a path that had one changes nothing. -/
theorem IsCoherent.append_of_kept? (h : s.IsCoherent) (hkept : s.reader.kept? p = some l) :
    IsCoherent { s with readings := s.readings ++ [(p, bytes)] } := by
  intro q
  obtain ⟨first, hfirst, -⟩ := h.first?_of_kept? hkept
  have hsame : { s with readings := s.readings ++ [(p, bytes)] }.first? q = s.first? q := by
    rw [first?_append]
    by_cases hq : q = p
    · rw [hq, hfirst]
      rfl
    · rw [if_neg fun hc ↦ hq hc.2, Option.or_none]
  rw [hsame]
  exact h q

/-- The first reading of a path is kept. -/
theorem IsCoherent.append_of_ofBytes (h : s.IsCoherent) (hkept : s.reader.kept? p = none)
    (hread : Loaded.ofBytes p bytes = .ok l) :
    IsCoherent { s with
      reader := s.reader.keep p l, readings := s.readings ++ [(p, bytes)] } := by
  intro q
  have hfirst : { s with
      reader := s.reader.keep p l, readings := s.readings ++ [(p, bytes)] }.first? q =
      (s.first? q).or (if s.reader.caching ∧ q = p then some bytes else none) := by
    rw [← first?_append, first?, first?, keep_caching]
  rw [hfirst, kept?_keep]
  split
  next hc =>
    rw [hc.2, h.first?_of_kept?_none hkept, Option.none_or, Option.map_some, Option.map_some, hread]
  next =>
    rw [Option.or_none]
    exact h q

/-- What a load does keeps the reader coherent, whatever is made of what it loads. -/
theorem IsCoherent.load (h : s.IsCoherent) {x : Except LoadError Loaded × Reader}
    (hx : Loads s.reader s.tree p x) {a : Answer} (ha : a.hasDocument = x.1.isOk) :
    IsCoherent { s with reader := x.2, readings := s.readingsWith p a } := by
  rw [readingsWith, ha]
  cases hx with
  | absent | flawed => exact h
  | kept hbytes hkept =>
    rw [hbytes]
    exact h.append_of_kept? hkept
  | read hbytes hkept hread =>
    rw [hbytes]
    exact h.append_of_ofBytes hkept (Loaded.ofBytes_of_ofFile hread)

/-- No event makes the reader incoherent. -/
theorem IsCoherent.step (h : s.IsCoherent) (e : Event) : (s.step e).IsCoherent := by
  cases e with
  | write p bytes => exact h
  | delete p => exact h
  | call c =>
    cases c with
    | load view file =>
      simp only [Course.step, call_load]
      exact h.load (loads ..) (view.hasDocument_answer _)
    | readText text => exact h
    | clear =>
      intro p
      have hkept : (s.step (.call .clear)).reader.kept? p = none := ite_self none
      have hfirst : (s.step (.call .clear)).first? p = none := ite_self none
      rw [hkept, hfirst]
      rfl

theorem isCoherent_after (h : s.IsCoherent) (events : List Event) :
    (s.after events).IsCoherent := by
  induction events generalizing s with
  | nil => exact h
  | cons e events ih => exact ih (h.step e)

theorem caching_step (e : Event) : (s.step e).reader.caching = s.reader.caching := by
  cases e with
  | write p bytes => rfl
  | delete p => rfl
  | call c =>
    cases c with
    | load view file =>
      simp only [Course.step, call_load]
      exact (loads ..).caching
    | readText text | clear => rfl

theorem caching_after (events : List Event) :
    (s.after events).reader.caching = s.reader.caching := by
  induction events generalizing s with
  | nil => rfl
  | cons e events ih => exact ih.trans (caching_step e)

theorem isCoherent_start (t : Files.Tree) (caching : Bool) : (start t caching).IsCoherent := by
  intro p
  cases caching <;> rfl

theorem IsCoherent.call_answer (h : s.IsCoherent) (c : Reader.Call) :
    (s.reader.call s.tree c).1 = answerOf s.loaded c := by
  rw [Reader.call_answer, funext fun p ↦ h.eq_loaded (loads ..)]

/-- The bytes of a first reading are a document. -/
theorem IsCoherent.exists_ofBytes (h : s.IsCoherent) (hfirst : s.first? p = some bytes) :
    ∃ l, Loaded.ofBytes p bytes = .ok l := by
  have hp := h p
  rw [hfirst] at hp
  obtain ⟨l, -, hl⟩ := Option.map_eq_some_iff.mp hp
  exact ⟨l, hl.symm⟩

theorem first?_step_write (s : Course) (p q : Files.Path) (bytes : List UInt8) :
    (s.step (.write p bytes)).first? q = s.first? q := rfl

/-- A load of a file whose document has not been read makes the bytes of the file those of its first
reading. -/
theorem IsCoherent.first?_step_load (h : s.IsCoherent) {file : Text}
    (hcaching : s.reader.caching = true) (hbytes : bytesAt s.tree (.ofText file) = .ok bytes)
    (hfirst : s.first? (.ofText file) = none)
    (hread : Loaded.ofFile s.tree (.ofText file) bytes = .ok l) :
    (s.step (.call (.load .whole file))).first? (.ofText file) = some bytes := by
  have hloaded : s.loaded (.ofText file) = .ok l := by
    rw [loaded_of_first?_none hbytes hfirst, hread]
  have hreadings : (s.step (.call (.load .whole file))).readings =
      s.readings ++ [(.ofText file, bytes)] := by
    simp only [Course.step, h.call_answer, answerOf, View.answer, hloaded, readingsAfter,
      readingsWith, hbytes]
    rfl
  have happend : { s with
      readings := s.readings ++ [(Files.Path.ofText file, bytes)] }.first? (.ofText file) =
      some bytes := by
    rw [first?_append, hfirst, if_pos ⟨hcaching, rfl⟩, Option.none_or]
  rw [first?, caching_step, hreadings]
  exact happend

end

/-! ## Calls at the end of a course -/

/-- Whatever has happened, every call answers as the history says; of a file that is there this is
what is read from the bytes of its first reading, which are a document, or else from the file as it
is.
A call that raises changes nothing, unless it has read a document; that can only be a call for a
project, and then the document is kept as it is by every other load. -/
theorem call_after (t : Files.Tree) (caching : Bool) (events : List Event) :
    let s := (start t caching).after events
    s.reader.caching = caching ∧
      (∀ p bytes, s.first? p = some bytes → ∃ l, Loaded.ofBytes p bytes = .ok l) ∧
      (∀ c, (s.reader.call s.tree c).1 = answerOf s.loaded c ∧
        ((answerOf s.loaded c).raises = true → (answerOf s.loaded c).hasDocument = false →
          (s.reader.call s.tree c).2 = s.reader)) ∧
      ∀ view file, (s.reader.call s.tree (.load view file)).2 =
        (s.reader.call s.tree (.load .whole file)).2 := by
  intro s
  have hcoherent : s.IsCoherent := isCoherent_after (isCoherent_start t caching) events
  refine ⟨caching_after events, fun p bytes ↦ hcoherent.exists_ofBytes, fun c ↦ ?_,
    fun view file ↦ ?_⟩
  · rw [← hcoherent.call_answer]
    exact ⟨rfl, call_reader_of_raises⟩
  · rw [call_load, call_load]
    rfl

/-- The bytes of a text in which every character is one byte. -/
def bytesOf (cs : List Char) : List UInt8 := cs.map fun c ↦ .ofNat c.toNat

/-- The files after one was written. -/
def treeOf (bytes : List UInt8) : Files.Tree :=
  ({} : Files.Tree).put (.ofText "a.yaml") (.file bytes)

theorem bytesAt_treeOf (bytes : List UInt8) :
    bytesAt (treeOf bytes) (.ofText "a.yaml") = .ok bytes := rfl

/-- A file that was loaded and then written again is loaded as it was, also by another name; and
asking for a file that is not there changes nothing. -/
theorem call_after_rewritten :
    let s := (start {} true).after [.write (.ofText "a.yaml") (bytesOf "modules: \x7b\x7d".toList),
      .call (.load .whole "a.yaml"), .write (.ofText "a.yaml") (bytesOf "\x7b".toList)]
    (s.reader.call s.tree (.load .whole "./a.yaml")).1 =
        .loaded (Loaded.ofBytes (.ofText "a.yaml") (bytesOf "modules: \x7b\x7d".toList)) ∧
      (s.reader.call s.tree (.load .whole "b.yaml")).2 = s.reader := by
  intro s
  obtain ⟨-, -, hcalls, -⟩ := call_after {} true
    [.write (.ofText "a.yaml") (bytesOf "modules: \x7b\x7d".toList),
      .call (.load .whole "a.yaml"), .write (.ofText "a.yaml") (bytesOf "\x7b".toList)]
  have htree : s.tree = treeOf (bytesOf "\x7b".toList) := rfl
  constructor
  · have htext : Loaded.isTextOf (fun _ ↦ true) (bytesOf "modules: \x7b\x7d".toList) = true := by
      decide +kernel
    obtain ⟨l, hread, -⟩ := Loaded.exists_ofBytes_of_isTextOf htext (.ofText "a.yaml")
    have hfirst : s.first? (.ofText "a.yaml") = some (bytesOf "modules: \x7b\x7d".toList) :=
      (first?_step_write _ _ _ _).trans
        (((isCoherent_start {} true).step (.write (.ofText "a.yaml") _)).first?_step_load
          rfl rfl rfl hread)
    have hpath : Files.Path.ofText "./a.yaml" = .ofText "a.yaml" := by decide +kernel
    have hbytes : bytesAt s.tree (.ofText "a.yaml") = .ok (bytesOf "\x7b".toList) :=
      bytesAt_treeOf _
    rw [(hcalls (.load .whole "./a.yaml")).1, answerOf, View.answer, hpath,
      loaded_of_first? hbytes hfirst]
  · have hloaded : s.loaded (.ofText "b.yaml") = .error (.notFound (.ofText "b.yaml")) := by
      rw [loaded, htree]
      rfl
    have hanswer : answerOf s.loaded (.load .whole "b.yaml") =
        .loaded (.error (.notFound (.ofText "b.yaml"))) := by
      rw [answerOf, View.answer, hloaded]
    exact (hcalls (.load .whole "b.yaml")).2 (by rw [hanswer]; rfl) (by rw [hanswer]; rfl)

/-! ## A document without a project -/

/-- The number that names the setting of a document, if it is one with a single setting. -/
def settingNumber? : Value → Option Int
  | .map [(.str modules, .map [(.str m, .map [(.str entities, .map []), (.str enums, .map [(.str e,
      .map [(.str items, .map []), (.str config, .map [(.int n, .str x)])])])])])] =>
    if modules = "modules" ∧ m = "m" ∧ entities = "entities" ∧ enums = "enums" ∧ e = "e" ∧
        items = "enumMap" ∧ config = "config" ∧ x = "x" then some n else none
  | _ => none

theorem eq_settingsDocument_of_settingNumber? {v : Value} {n : Int}
    (h : settingNumber? v = some n) : v = settingsDocument n := by
  unfold settingNumber? at h
  split at h
  next =>
    obtain ⟨⟨rfl, rfl, rfl, rfl, rfl, rfl, rfl, rfl⟩, hnumber⟩ :=
      Option.ite_none_right_eq_some.mp h
    cases hnumber
    rfl
  next => cases h

/-- A file with one enumeration, which has one setting, named by a number that cannot be written. -/
def longSettingBytes : List UInt8 :=
  bytesOf (("modules: \x7bm: \x7bentities: \x7b\x7d, enums: \x7be: \x7benumMap: \x7b\x7d, " ++
    "config: \x7b? 0x").toList ++ List.replicate 3572 'F' ++ " : x\x7d\x7d\x7d\x7d\x7d".toList)

set_option maxRecDepth 100000 in
theorem isTextOf_longSettingBytes :
    Loaded.isTextOf (fun v ↦ (settingNumber? v).any fun n ↦ !Integer.isWritable n)
      longSettingBytes = true := by
  decide +kernel

/-- A name of one byte more than there may be. -/
def longName : Text := List.replicate (Files.Name.limit + 1) (.char 'a')

/-- It is neither found nor reported to be missing. -/
theorem exists_bytesAt_longName (bytes : List UInt8) :
    ∃ e, bytesAt (treeOf bytes) (.ofText longName) = .error e ∧ e.isReported = false := by
  have hpath : Files.Path.ofText longName = { parts := [longName] } := by decide +kernel
  have hpossible : Files.Name.isPossible ({ parts := [longName] } : Files.Path).text = true := by
    decide +kernel
  have hlength : ¬ Files.Name.pathLimit <
      Files.Name.size ({ parts := [longName] } : Files.Path).text := by decide +kernel
  have hname : Files.Name.limit < Files.Name.size longName := by decide +kernel
  have hplace : (treeOf bytes).place { parts := [longName] } = .error (.refused .tooLong) := by
    change (treeOf bytes).follow [] [longName] = _
    have hpass : (treeOf bytes).canPass [] = true := rfl
    have htop : ∃ entries, (treeOf bytes).top.find? [].reverse = some (.directory entries) :=
      ⟨_, rfl⟩
    obtain ⟨entries, hentries⟩ := htop
    rw [Files.Tree.follow, hentries]
    simp only [hpass, Bool.not_true, Bool.false_eq_true, if_false, if_pos hname]
  have hfind : (treeOf bytes).find (.ofText longName) = .error ⟨.tooLong, .ofText longName⟩ := by
    rw [hpath, Files.Tree.find, hpossible, if_neg hlength, hplace]
    rfl
  exact ⟨.noAccess ⟨.tooLong, .ofText longName⟩, by rw [bytesAt, hfind], rfl⟩

/-- The course of one file that was written. -/
def written (bytes : List UInt8) : Course :=
  (start {} true).after [.write (.ofText "a.yaml") bytes]

theorem tree_written (bytes : List UInt8) : (written bytes).tree = treeOf bytes := rfl

/-- If no project can be made of its document, the document is kept none the less. -/
theorem loadProject_written {bytes : List UInt8} {l : Loaded} {f : Fault}
    (hread : Loaded.ofFile (treeOf bytes) (.ofText "a.yaml") bytes = .ok l)
    (hfault : (Project.load l.document).answer = .error f) :
    ((written bytes).reader.call (written bytes).tree (.load .project "a.yaml")).1.raises = true ∧
      ((written bytes).reader.call (written bytes).tree (.load .project "a.yaml")).2 ≠
        (written bytes).reader := by
  have hload := load_of_ofFile (bytesAt_treeOf bytes) (r := (written bytes).reader) rfl hread
  rw [call_load, tree_written, hload]
  simp only [Prod.map, View.answer, projectOf, hfault, id]
  refine ⟨rfl, fun hsame ↦ ?_⟩
  have hkept : ((written bytes).reader.keep (.ofText "a.yaml") l).kept? (.ofText "a.yaml") =
      some l := by
    rw [kept?_keep]
    exact if_pos ⟨rfl, rfl⟩
  rw [hsame] at hkept
  cases hkept

/-- A call for a project that raises and leaves a document behind; and a file that is not there and
is not reported to be missing. -/
theorem raises_and_keeps :
    (((written longSettingBytes).reader.call (written longSettingBytes).tree
          (.load .project "a.yaml")).1.raises = true ∧
        ((written longSettingBytes).reader.call (written longSettingBytes).tree
          (.load .project "a.yaml")).2 ≠ (written longSettingBytes).reader) ∧
      ∃ e, ((written longSettingBytes).reader.call (written longSettingBytes).tree
        (.load .whole longName)).1 = .loaded (.error e) ∧ e.isReported = false := by
  constructor
  · obtain ⟨l, hread, htest⟩ :=
      Loaded.exists_ofBytes_of_isTextOf isTextOf_longSettingBytes (.ofText "a.yaml")
    obtain ⟨n, hnumber, hlong⟩ := (Option.any_eq_true _ _).mp htest
    rw [Bool.not_eq_true'] at hlong
    refine loadProject_written hread (f := .numberTooLong) ?_
    rw [eq_settingsDocument_of_settingNumber? hnumber]
    exact answer_load_settingsDocument hlong
  · obtain ⟨e, hbytes, he⟩ := exists_bytesAt_longName longSettingBytes
    refine ⟨e, ?_, he⟩
    rw [call_load, tree_written, load_of_bytesAt_error hbytes]
    rfl

end Course

end EntityGraph
