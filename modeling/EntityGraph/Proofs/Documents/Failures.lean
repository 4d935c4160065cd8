import EntityGraph.Proofs.Documents.History
import EntityGraph.Proofs.Yaml.Composition
import EntityGraph.Proofs.Yaml.Construction

/-!
# What goes wrong when documents are read

Reading a document gives the document or an error. Most errors are about the document and are
reported as such: the file is missing or is no file, it may not be read, its bytes are no text, or
the text is flawed. The others are of other kinds, and none of them is caught where documents are
read. They have three causes, and there is no further one: a path that cannot be looked for, because
it is too long or leads through a directory that may not be passed; an escape or a version that asks
for a character or a number that does not exist; and a scalar whose text gives no value of the kind
that its tag asks for, such as a date in a thirteenth month.
-/

namespace EntityGraph

namespace Yaml

/-! ## What a text asks for -/

/-- What a text asks for that does not exist, where values are numbered from a label on. -/
inductive AsksFor (label : Nat) (text : List Char) : Failure → Prop where
  /-- A character by a code of eight digits. -/
  | escape {before digits after : List Char} :
    text = before ++ ['\\', 'U'] ++ digits ++ after → digits.length = 8 →
      digits.all isHexDigit = true → 0x110000 ≤ Scalar.hexValue digits →
      AsksFor label text (.escape (Scalar.hexValue digits))
  /-- A version with a number of too many digits. -/
  | version {before gap digits after : List Char} :
    text = before ++ ['%', 'Y', 'A', 'M', 'L'] ++ gap ++ digits ++ after →
      gap.all isVersionChar = true → digits.all Char.isDigit = true →
      Integer.digitLimit < digits.length →
      AsksFor label text (.scalar (.tooManyDigits digits.length))
  /-- A truth value, a number or a moment by a text that stands for none. -/
  | value {root m : Node} {fault : ScalarFault} :
    Node.ofText? text = .ok (some root) → m.IsPart root →
      m.tag ∈ [Tag.bool, .int, .float, .timestamp] → Node.Misread label m fault →
      AsksFor label text (.scalar fault)

variable {label : Nat} {f : Failure}

theorem Unscannable.asksFor {text : List Char} (h : Unscannable text f) :
    f.isFlaw = true ∨ AsksFor label text f := by
  cases h with
  | character _ => exact .inl rfl
  | token => exact .inl rfl
  | escape htext hlength hdigits hvalue => exact .inr (.escape htext hlength hdigits hvalue)
  | version htext hgap hdigits hlimit => exact .inr (.version htext hgap hdigits hlimit)

/-- Only truth values, numbers and moments can be misread. -/
theorem ScalarValue.tag_of_ofText {tag : Tag} {text : Text} {fault : ScalarFault}
    (h : ofText tag label text = .error (.scalar fault)) :
    tag ∈ [Tag.bool, .int, .float, .timestamp] := by
  cases tag with
  | bool => simp
  | int => simp
  | float => simp
  | timestamp => simp
  | binary =>
    rw [ofText] at h
    split at h
    next => cases h
    next => cases h
  | _ => cases h

theorem Node.Misread.tag_mem {m : Node} {fault : ScalarFault} (h : Misread label m fault) :
    m.tag ∈ [Tag.bool, .int, .float, .timestamp] := by
  cases h with
  | scalar h => exact ScalarValue.tag_of_ofText h
  | mapping _ _ h => exact ScalarValue.tag_of_ofText h
  | moment _ => simp [Node.tag]

section

variable {text : Text}

theorem asksFor_of_rootOf? (h : rootOf? text = .error f) :
    f.isFlaw = true ∨ ∃ cs, text.chars? = some cs ∧ AsksFor label cs f := by
  rw [rootOf?] at h
  cases hchars : text.chars? with
  | none =>
    rw [hchars] at h
    cases h
    exact .inl rfl
  | some cs =>
    rw [hchars] at h
    obtain hflaw | hscan := Node.unscannable_of_ofText? h
    · exact .inl hflaw
    · exact hscan.asksFor.imp_right fun hasks ↦ ⟨cs, rfl, hasks⟩

theorem asksFor_of_read (h : read text label = .error f) :
    f.isFlaw = true ∨ ∃ cs, text.chars? = some cs ∧ AsksFor label cs f := by
  rw [read] at h
  cases hroot : rootOf? text with
  | error f' =>
    rw [hroot] at h
    cases h
    exact asksFor_of_rootOf? hroot
  | ok root? =>
    rw [hroot] at h
    cases root? with
    | none => cases h
    | some root =>
      change (root.value? label >>= fun v ↦ .ok (orEmpty v)) = .error f at h
      cases hvalue : root.value? label with
      | ok v =>
        rw [hvalue] at h
        cases h
      | error f' =>
        rw [hvalue] at h
        cases h
        obtain hflaw | ⟨fault, rfl, m, hm, hmisread⟩ := Node.isDue_of_value? hvalue
        · exact .inl hflaw
        · right
          rw [rootOf?] at hroot
          cases hchars : text.chars? with
          | none =>
            rw [hchars] at hroot
            cases hroot
          | some cs =>
            rw [hchars] at hroot
            exact ⟨cs, rfl, .value hroot hm hmisread.tag_mem hmisread⟩

theorem asksFor_of_sourceMap (h : sourceMap text = .error f) :
    ∃ cs, text.chars? = some cs ∧ AsksFor label cs f := by
  rw [sourceMap] at h
  split at h
  next => cases h
  next => cases h
  next f' hroot =>
    split at h
    next => cases h
    next hflaw =>
      cases h
      exact (asksFor_of_rootOf? hroot).resolve_left hflaw

end

end Yaml

open Yaml

/-! ## Paths that cannot be looked for -/

namespace Files.Tree

variable {t : Tree} {p : Path}

/-- What forbids to follow a name from the directory at a place. -/
def Forbids (t : Tree) (place : List Text) (name : Text) : Refusal → Prop
  | .tooLong => Name.limit < Name.size name
  | .denied => t.canPass place = false

/-- Why a path cannot be looked for: it is too long, or a name in it cannot be followed from the
directory that the names before it lead to. -/
inductive Refuses (t : Tree) (p : Path) : Refusal → Prop where
  | path : Name.pathLimit < Name.size p.text → Refuses t p .tooLong
  | name {before after place : List Text} {name : Text} {entries : List (Text × Entry)}
      {r : Refusal} :
    p.parts = before ++ name :: after → t.follow (t.start p).reverse before = .ok place →
      t.top.find? place.reverse = some (.directory entries) → t.Forbids place name r →
      Refuses t p r

theorem exists_forbids_of_follow {place names : List Text} {r : Refusal}
    (h : t.follow place names = .error (.refused r)) :
    ∃ before name after inner entries, names = before ++ name :: after ∧
      t.follow place before = .ok inner ∧
      t.top.find? inner.reverse = some (.directory entries) ∧ t.Forbids inner name r := by
  induction names generalizing place with
  | nil => cases h
  | cons name rest ih =>
    rw [follow] at h
    split at h
    next entries hentries =>
      split at h
      next hpass =>
        cases h
        rw [Bool.not_eq_true'] at hpass
        exact ⟨[], name, rest, place, entries, rfl, rfl, hentries, hpass⟩
      next hpass =>
        split at h
        next hlong =>
          cases h
          exact ⟨[], name, rest, place, entries, rfl, rfl, hentries, hlong⟩
        next hshort =>
          -- Nothing forbids the first name, so the rest is followed from where it leads.
          obtain ⟨place', hstep, h⟩ : ∃ place', (∀ more, t.follow place (name :: more) =
              t.follow place' more) ∧ t.follow place' rest = .error (.refused r) := by
            split at h
            next hup =>
              refine ⟨place.tail, fun more ↦ ?_, h⟩
              simp only [follow, hentries, if_neg hpass, if_neg hshort, if_pos hup]
            next hup =>
              refine ⟨name :: place, fun more ↦ ?_, h⟩
              simp only [follow, hentries, if_neg hpass, if_neg hshort, if_neg hup]
          obtain ⟨before, name', after, inner, entries', rfl, hbefore, hinner, hforbids⟩ := ih h
          exact ⟨name :: before, name', after, inner, entries', rfl, (hstep before).trans hbefore,
            hinner, hforbids⟩
    next => cases h

theorem refuses_of_find {e : AccessError} (h : t.find p = .error e) :
    ∃ r, e = ⟨r, p⟩ ∧ t.Refuses p r := by
  rw [find] at h
  split at h
  next => cases h
  next =>
    split at h
    next hlong =>
      cases h
      exact ⟨.tooLong, rfl, .path hlong⟩
    next =>
      split at h
      next => cases h
      next => cases h
      next r hplace =>
        cases h
        obtain ⟨before, name, after, place, entries, hparts, hbefore, hentries, hforbids⟩ :=
          exists_forbids_of_follow hplace
        exact ⟨r, rfl, .name hparts hbefore hentries hforbids⟩

end Files.Tree

/-! ## Errors that are not reported -/

/-- Every error that a result may be is reported as one of the document, or escapes. -/
def ReportsBut {α : Type} (escapes : LoadError → Prop) (x : Except LoadError α) : Prop :=
  ∀ e, x = .error e → e.label = "DocumentLoadError" ∨ escapes e

theorem ReportsBut.map {α β : Type} {escapes : LoadError → Prop} {x : Except LoadError α}
    (h : ReportsBut escapes x) (f : α → β) : ReportsBut escapes (x.map f) := by
  cases x with
  | error e =>
    intro e' he
    cases he
    exact h e rfl
  | ok a =>
    intro e he
    cases he

/-- A failure in a text is reported if it is a flaw. -/
theorem reportsBut_mapError {α : Type} {escapes : LoadError → Prop} {origin text : Text}
    {x : Except Failure α}
    (h : ∀ f, x = .error f → f.isFlaw = true ∨ escapes (.impossible f)) :
    ReportsBut escapes (x.mapError (.ofFailure origin text)) := by
  cases x with
  | ok a =>
    intro e he
    cases he
  | error f =>
    intro e he
    cases he
    rw [LoadError.ofFailure]
    by_cases hflaw : f.isFlaw = true
    · rw [if_pos hflaw]
      exact .inl rfl
    · rw [if_neg hflaw]
      exact .inr ((h f rfl).resolve_left hflaw)

/-- An error that escapes from a text: the text asks for something that does not exist. -/
inductive Text.Escapes (text : Text) : LoadError → Prop where
  | impossible {cs : List Char} {f : Failure} :
    text.chars? = some cs → AsksFor firstLabel cs f → Escapes text (.impossible f)

/-- An error that escapes from a path: the path cannot be looked for, or the file under it holds a
text that asks for something that does not exist. -/
inductive Files.Tree.Escapes (t : Files.Tree) (p : Files.Path) : LoadError → Prop where
  | noAccess {r : Files.Refusal} : t.Refuses p r → Escapes t p (.noAccess ⟨r, p⟩)
  | impossible {bytes : List UInt8} {cs : List Char} {e : LoadError} :
    t.find p = .ok (some (.file bytes)) → Text.Utf8.decode bytes = .ok cs →
      (Text.ofChars (Text.unifyLineEnds cs)).Escapes e → Escapes t p e

namespace Loaded

variable {origin text : Text}

theorem reportsBut_documentOf (origin text : Text) :
    ReportsBut text.Escapes (documentOf origin text) := by
  apply reportsBut_mapError
  intro f hf
  refine (asksFor_of_read hf).imp_right ?_
  rintro ⟨cs, hcs, hasks⟩
  exact .impossible hcs hasks

theorem reportsBut_ofText (origin text : Text) : ReportsBut text.Escapes (ofText origin text) := by
  have hdocument := reportsBut_documentOf origin text
  have hpositions :
      ReportsBut text.Escapes ((Yaml.sourceMap text).mapError (.ofFailure origin text)) := by
    apply reportsBut_mapError
    intro f hf
    obtain ⟨cs, hcs, hasks⟩ := asksFor_of_sourceMap hf
    exact .inr (.impossible hcs hasks)
  rw [ofText]
  cases hread : documentOf origin text with
  | error e =>
    rw [hread] at hdocument
    intro e' he
    cases he
    exact hdocument e rfl
  | ok document => exact hpositions.map _

theorem reportsBut_ofBytes (p : Files.Path) (bytes : List UInt8) :
    ReportsBut (fun e ↦ ∃ cs, Text.Utf8.decode bytes = .ok cs ∧
      (Text.ofChars (Text.unifyLineEnds cs)).Escapes e) (ofBytes p bytes) := by
  rw [ofBytes]
  cases hdecoded : Text.Utf8.decode bytes with
  | error e =>
    intro e' he
    cases he
    exact .inl rfl
  | ok cs =>
    intro e he
    exact (reportsBut_ofText _ _ e he).imp_right fun hescapes ↦ ⟨cs, rfl, hescapes⟩

theorem reportsBut_ofFile (t : Files.Tree) (p : Files.Path) (bytes : List UInt8) :
    ReportsBut (fun e ↦ ∃ cs, Text.Utf8.decode bytes = .ok cs ∧
      (Text.ofChars (Text.unifyLineEnds cs)).Escapes e) (ofFile t p bytes) := by
  rw [ofFile]
  split
  next => exact reportsBut_ofBytes p bytes
  next =>
    intro e he
    cases he
    exact .inl rfl

end Loaded

namespace Reader

theorem bytesAt_eq_ok {t : Files.Tree} {p : Files.Path} {bytes : List UInt8}
    (h : bytesAt t p = .ok bytes) : t.find p = .ok (some (.file bytes)) := by
  rw [bytesAt] at h
  split at h
  next => cases h
  next => cases h
  next hfind =>
    cases h
    exact hfind
  next => cases h

theorem reportsBut_bytesAt (t : Files.Tree) (p : Files.Path) :
    ReportsBut (t.Escapes p) (bytesAt t p) := by
  rw [bytesAt]
  intro e he
  split at he
  next hfind =>
    cases he
    obtain ⟨r, rfl, hrefuses⟩ := Files.Tree.refuses_of_find hfind
    exact .inr (.noAccess hrefuses)
  next =>
    cases he
    exact .inl rfl
  next => cases he
  next =>
    cases he
    exact .inl rfl

theorem reportsBut_load (r : Reader) (t : Files.Tree) (p : Files.Path) :
    ReportsBut (t.Escapes p) (r.load t p).value.1 := by
  have hloads := loads r t p
  generalize (r.load t p).value = x at hloads ⊢
  intro e he
  cases hloads with
  | absent hbytes =>
    cases he
    exact reportsBut_bytesAt t p e hbytes
  | kept hbytes hkept => cases he
  | read hbytes hkept hread => cases he
  | flawed hbytes hkept hread =>
    cases he
    refine (Loaded.reportsBut_ofFile t p _ e hread).imp_right ?_
    rintro ⟨cs, hcs, hescapes⟩
    exact .impossible (bytesAt_eq_ok hbytes) hcs hescapes

/-- What a reader that is asked for a document answers, whatever it did before: from a path and from
a text it gives a document or an error that is reported as one of the document, unless the path
cannot be looked for or the text asks for something that does not exist. -/
theorem call_reportsBut (r : Reader) (t : Files.Tree) (file text : Text) :
    (∃ x, (r.call t (.load .whole file)).1 = .loaded x ∧
      ReportsBut (t.Escapes (.ofText file)) x) ∧
    (∃ x, (r.call t (.load .document file)).1 = .document x ∧
      ReportsBut (t.Escapes (.ofText file)) x) ∧
    ∃ x, (r.call t (.readText text)).1 = .document x ∧ ReportsBut text.Escapes x := by
  have hload := reportsBut_load r t (.ofText file)
  refine ⟨⟨_, rfl, hload⟩, ⟨_, rfl, hload.map _⟩, ⟨_, rfl, ?_⟩⟩
  exact Loaded.reportsBut_documentOf _ text

end Reader

/-! ## What errors name -/

/-- Whether an error names a file as the one it is about. That a value does not exist is told
without a name. -/
def LoadError.Names (p : Files.Path) : LoadError → Prop
  | .notFound q | .notAFile q | .notText q _ => q = p
  | .noAccess e | .unreadable e => e.path = p
  | .flawed origin _ _ => origin = p.text
  | .impossible _ => True

theorem LoadError.names_ofFailure (p : Files.Path) (text : Text) (f : Failure) :
    (ofFailure p.text text f).Names p := by
  rw [ofFailure]
  split
  next => exact rfl
  next => trivial

namespace Loaded

variable {p : Files.Path} {e : LoadError}

theorem names_of_ofText {text : Text} (h : ofText p.text text = .error e) : e.Names p := by
  rw [ofText, documentOf] at h
  cases hread : Yaml.read text with
  | error f =>
    rw [hread] at h
    cases h
    exact LoadError.names_ofFailure p text f
  | ok v =>
    rw [hread] at h
    cases hmap : Yaml.sourceMap text with
    | error f =>
      rw [hmap] at h
      cases h
      exact LoadError.names_ofFailure p text f
    | ok m =>
      rw [hmap] at h
      cases h

theorem names_of_ofFile {t : Files.Tree} {bytes : List UInt8} (h : ofFile t p bytes = .error e) :
    e.Names p := by
  rw [ofFile] at h
  split at h
  next =>
    rw [ofBytes] at h
    cases hdecoded : Text.Utf8.decode bytes with
    | error e' =>
      rw [hdecoded] at h
      cases h
      exact rfl
    | ok cs =>
      rw [hdecoded] at h
      exact names_of_ofText h
  next =>
    cases h
    exact rfl

end Loaded

/-- Every error of a load names the file that was asked for. -/
theorem Reader.names_of_load {r : Reader} {t : Files.Tree} {p : Files.Path} {e : LoadError}
    (h : (r.load t p).value.1 = .error e) : e.Names p := by
  have hloads := loads r t p
  generalize (r.load t p).value = x at hloads h
  cases hloads with
  | absent hbytes =>
    cases h
    rw [bytesAt] at hbytes
    split at hbytes
    next hfind =>
      cases hbytes
      obtain ⟨refusal, rfl, -⟩ := Files.Tree.refuses_of_find hfind
      exact rfl
    next => cases hbytes; exact rfl
    next => cases hbytes
    next => cases hbytes; exact rfl
  | kept hbytes hkept => cases h
  | read hbytes hkept hread => cases h
  | flawed hbytes hkept hread =>
    cases h
    exact Loaded.names_of_ofFile hread

end EntityGraph
