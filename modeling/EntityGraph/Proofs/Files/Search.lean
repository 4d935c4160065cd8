import EntityGraph.Files.Search
import EntityGraph.Proofs.Files.Order

/-!
# What a search for project documents finds

A search comes to a list of paths or is broken off by a path that is too long or leads through a
closed directory, and each of its parts says the same two things: what would break it off, and which
paths it finds. Lists are put together in the walk below a directory as they are for one argument
after the other, so there is one lemma for that, and the walk and the arguments only say what they
put together.

Only an argument has to be a file to be found. Below a directory a path is found for its name alone,
whatever stands there: a directory or a device with the name of a project document is found as well.
A closed directory is no refusal there: the walk does not come further, and what it has found in a
directory that may not be passed is found and yet cannot be looked up.
-/

namespace EntityGraph.Files

/-! ## Sound entries -/

/-- Whether a name can stand in a directory. -/
def Name.isProper (name : Text) : Bool :=
  name ≠ [] ∧ name ≠ "." ∧ name ≠ ".." ∧ .char '/' ∉ name ∧ isPossible name = true ∧
    size name ≤ limit

namespace Entry

mutual

/-- Whether the names in every directory are proper ones and differ. -/
def isSound : Entry → Bool
  | .directory entries => areSound entries
  | _ => true

def areSound : List (Text × Entry) → Bool
  | [] => true
  | (name, e) :: rest =>
    Name.isProper name && (rest.lookup name).isNone && e.isSound && areSound rest

end

/-- In a sound directory a name leads to the one entry under it. -/
theorem lookup_of_areSound {entries : List (Text × Entry)} (h : areSound entries = true)
    {name : Text} {e : Entry} (hmem : (name, e) ∈ entries) :
    entries.lookup name = some e ∧ Name.isProper name = true ∧ e.isSound = true := by
  induction entries with
  | nil => cases hmem
  | cons entry rest ih =>
    obtain ⟨n, inner⟩ := entry
    simp only [areSound, Bool.and_eq_true] at h
    obtain ⟨⟨⟨hproper, hnone⟩, hinner⟩, hrest⟩ := h
    obtain heq | hmem := List.mem_cons.mp hmem
    · cases heq
      exact ⟨List.lookup_cons_self, hproper, hinner⟩
    · obtain ⟨hlookup, hname⟩ := ih hrest hmem
      have hne : (name == n) = false := by
        refine beq_eq_false_iff_ne.mpr fun heq ↦ ?_
        rw [← heq, hlookup] at hnone
        cases hnone
      exact ⟨by rw [List.lookup_cons, hne]; exact hlookup, hname⟩

theorem areSound_entries {e : Entry} (h : e.isSound = true) : areSound e.entries = true := by
  cases e with
  | directory entries => rwa [isSound] at h
  | file bytes => rfl
  | device => rfl

theorem isSound_of_find? {e inner : Entry} {names : List Text} (h : e.isSound = true)
    (hfind : e.find? names = some inner) : inner.isSound = true := by
  induction names generalizing e with
  | nil =>
    cases hfind
    exact h
  | cons name rest ih =>
    obtain ⟨child, hlookup, hchild⟩ := Option.bind_eq_some_iff.mp hfind
    obtain ⟨before, after, hsplit, -⟩ := List.lookup_eq_some_iff.mp hlookup
    have hmem : (name, child) ∈ e.entries := by simp [hsplit]
    exact ih (lookup_of_areSound (areSound_entries h) hmem).2.2 hchild

theorem find?_append (e : Entry) (names more : List Text) :
    e.find? (names ++ more) = (e.find? names).bind (·.find? more) := by
  induction names generalizing e with
  | nil => rfl
  | cons name rest ih =>
    simp only [List.cons_append, find?, Option.bind_eq_bind, Option.bind_assoc, ih]

end Entry

/-! ## Below a directory -/

@[simp] theorem Path.name_child (p : Path) (name : Text) : (p.child name).name = name := by
  simp [Path.name, Path.child]

/-- What the walk from a directory at a place comes to, each with the path that the walk has for it.
The names in a directory may have to be read, and what is further below is reached through it. -/
inductive Tree.Below (t : Tree) : List Text → Path → Entry → Path → Entry → Prop
  | child {place : List Text} {p : Path} {entries : List (Text × Entry)} {name : Text} {e : Entry}
    (hread : t.canRead place = true) (h : (name, e) ∈ entries) :
    Below t place p (.directory entries) (p.child name) e
  | deeper {place : List Text} {p q : Path} {entries : List (Text × Entry)} {name : Text}
    {inner e : Entry} (hread : t.canRead place = true) (hpass : t.canPass place = true)
    (h : (name, inner) ∈ entries) (hbelow : Below t (name :: place) (p.child name) inner q e) :
    Below t place p (.directory entries) q e

section

variable {t : Tree} {place : List Text} {p q : Path} {outer inner e : Entry}

/-- Only a directory has something below it. -/
theorem Tree.Below.isDirectory (h : t.Below place p outer q e) : outer.isDirectory = true := by
  cases h <;> rfl

theorem Tree.Below.canRead (h : t.Below place p outer q e) : t.canRead place = true := by
  cases h <;> assumption

theorem not_below_nil : ¬ t.Below place p (.directory []) q e := by
  rintro (⟨-, h⟩ | ⟨-, -, h, -⟩) <;> cases h

theorem below_cons_iff {name : Text} {rest : List (Text × Entry)}
    (hread : t.canRead place = true) :
    t.Below place p (.directory ((name, inner) :: rest)) q e ↔
      (q = p.child name ∧ e = inner) ∨
        (t.canPass place = true ∧ t.Below (name :: place) (p.child name) inner q e) ∨
        t.Below place p (.directory rest) q e := by
  constructor
  · rintro (⟨-, h⟩ | ⟨-, hpass, h, hbelow⟩)
    · obtain heq | h := List.mem_cons.mp h
      · cases heq
        exact .inl ⟨rfl, rfl⟩
      · exact .inr (.inr (.child hread h))
    · obtain heq | h := List.mem_cons.mp h
      · cases heq
        exact .inr (.inl ⟨hpass, hbelow⟩)
      · exact .inr (.inr (.deeper hread hpass h hbelow))
  · rintro (⟨rfl, rfl⟩ | ⟨hpass, hbelow⟩ | hbelow)
    · exact .child hread List.mem_cons_self
    · exact .deeper hread hpass List.mem_cons_self hbelow
    · cases hbelow with
      | child _ h => exact .child hread (List.mem_cons_of_mem _ h)
      | deeper _ hpass h hbelow => exact .deeper hread hpass (List.mem_cons_of_mem _ h) hbelow

end

section

variable (t : Tree) (place : List Text) (p : Path) (e : Entry)

/-- Whether a path below a directory has the name of a project document. -/
def IsNamedBelow (q : Path) : Prop :=
  ∃ found, t.Below place p e q found ∧ isProjectName q.name = true

/-- Whether that is so for an entry that is reached through the directory around it. -/
def IsNamedWithin (q : Path) : Prop := t.canPass place.tail = true ∧ IsNamedBelow t place p e q

/-- Whether an error is that of a directory below a directory whose path is too long. -/
def IsOverlongBelow (x : AccessError) : Prop :=
  ∃ entries, t.Below place p e x.path (.directory entries) ∧
    Name.pathLimit < Name.size x.path.text ∧ x.refusal = .tooLong

/-- Whether it is that of such a directory below an entry, or of the entry itself. -/
def IsOverlongWithin (x : AccessError) : Prop :=
  (e.isDirectory = true ∧ Name.pathLimit < Name.size p.text ∧ x = ⟨.tooLong, p⟩) ∨
    (t.canPass place.tail = true ∧ IsOverlongBelow t place p e x)

end

section

variable {t : Tree} {place : List Text} {p : Path} {name : Text} {inner : Entry}
  {rest : List (Text × Entry)} (hread : t.canRead place = true)

include hread

theorem isNamedBelow_cons_iff {q : Path} :
    IsNamedBelow t place p (.directory ((name, inner) :: rest)) q ↔
      ((isProjectName name = true ∧ q = p.child name) ∨
        IsNamedWithin t (name :: place) (p.child name) inner q) ∨
        IsNamedBelow t place p (.directory rest) q := by
  simp only [IsNamedBelow, IsNamedWithin, below_cons_iff hread, or_and_right, exists_or, or_assoc,
    and_assoc, exists_and_left, List.tail_cons]
  refine or_congr ⟨?_, ?_⟩ Iff.rfl
  · rintro ⟨rfl, e, rfl, hname⟩
    exact ⟨by simpa using hname, rfl⟩
  · rintro ⟨hname, rfl⟩
    exact ⟨rfl, inner, rfl, by simpa using hname⟩

theorem isOverlongBelow_cons_iff {x : AccessError} :
    IsOverlongBelow t place p (.directory ((name, inner) :: rest)) x ↔
      IsOverlongWithin t (name :: place) (p.child name) inner x ∨
        IsOverlongBelow t place p (.directory rest) x := by
  simp only [IsOverlongBelow, IsOverlongWithin, below_cons_iff hread, or_and_right, exists_or,
    or_assoc, and_assoc, exists_and_left, List.tail_cons]
  refine or_congr ⟨?_, ?_⟩ Iff.rfl
  · rintro ⟨hq, entries, rfl, hlong, hrefusal⟩
    rw [hq] at hlong
    exact ⟨rfl, hlong, by rw [← hq, ← hrefusal]⟩
  · rintro ⟨hdirectory, hlong, rfl⟩
    cases inner with
    | directory entries => exact ⟨rfl, entries, rfl, hlong, rfl⟩
    | file bytes => cases hdirectory
    | device => cases hdirectory

end

/-! ## Lists that are put together -/

/-- What a part of a search comes to: all the paths that are found, as long as no error breaks the
search off, and else one that does. -/
def Gathers (breaks : AccessError → Prop) (finds : Path → Prop) :
    Except AccessError (List Path) → Prop
  | .ok found => (∀ x, ¬ breaks x) ∧ ∀ q, q ∈ found ↔ finds q
  | .error x => breaks x

section

variable {breaks breaks' : AccessError → Prop} {finds finds' : Path → Prop}
  {r r' : Except AccessError (List Path)}

namespace Gathers

theorem congr (h : Gathers breaks finds r) (hbreaks : ∀ x, breaks x ↔ breaks' x)
    (hfinds : ∀ q, finds q ↔ finds' q) : Gathers breaks' finds' r := by
  cases r with
  | ok found => exact ⟨fun x hx ↦ h.1 x ((hbreaks x).mpr hx), fun q ↦ (h.2 q).trans (hfinds q)⟩
  | error x => exact (hbreaks _).mp h

theorem append (h : Gathers breaks finds r) (h' : Gathers breaks' finds' r') :
    Gathers (fun x ↦ breaks x ∨ breaks' x) (fun q ↦ finds q ∨ finds' q)
      (do return (← r) ++ (← r')) := by
  cases r with
  | error x => exact .inl h
  | ok found =>
    cases r' with
    | error x => exact .inr h'
    | ok found' =>
      refine ⟨fun x hx ↦ hx.elim (h.1 x) (h'.1 x), fun q ↦ ?_⟩
      rw [List.mem_append, h.2, h'.2]

end Gathers

theorem gathers_empty (hbreaks : ∀ x, ¬ breaks x) (hfinds : ∀ q, ¬ finds q) :
    Gathers breaks finds (.ok []) :=
  ⟨hbreaks, fun q ↦ ⟨fun h ↦ absurd h List.not_mem_nil, fun h ↦ absurd h (hfinds q)⟩⟩

end

section

variable {t : Tree}

theorem projectPathsIn_cons (place : List Text) (p : Path) (name : Text) (e : Entry)
    (rest : List (Text × Entry)) :
    projectPathsIn t place p ((name, e) :: rest) =
      (do
        let first : Except AccessError (List Path) := do
          let here : Except AccessError (List Path) :=
            .ok (if isProjectName name then [p.child name] else [])
          return (← here) ++ (← projectPaths t (name :: place) (p.child name) e)
        return (← first) ++ (← projectPathsIn t place p rest)) := by
  rw [projectPathsIn]
  cases projectPaths t (name :: place) (p.child name) e <;>
    cases projectPathsIn t place p rest <;> rfl

mutual

theorem gathers_projectPaths (place : List Text) (p : Path) (e : Entry) :
    Gathers (IsOverlongWithin t place p e) (IsNamedWithin t place p e)
      (projectPaths t place p e) := by
  -- Nothing but a directory is walked.
  have hleaf (he : e.isDirectory = false) :
      Gathers (IsOverlongWithin t place p e) (IsNamedWithin t place p e) (.ok []) := by
    refine gathers_empty ?_ fun q ⟨_, _, hbelow, _⟩ ↦ Bool.false_ne_true (he ▸ hbelow.isDirectory)
    rintro x (⟨hdirectory, -, -⟩ | ⟨-, _, hbelow, -⟩)
    · exact Bool.false_ne_true (he ▸ hdirectory)
    · exact Bool.false_ne_true (he ▸ hbelow.isDirectory)
  cases e with
  | file bytes =>
    rw [projectPaths]
    · exact hleaf rfl
    · nofun
  | device =>
    rw [projectPaths]
    · exact hleaf rfl
    · nofun
  | directory entries =>
    rw [projectPaths]
    split
    next hlong => exact .inl ⟨rfl, hlong, rfl⟩
    next hshort =>
      have hself (x : AccessError) : ¬ (Entry.isDirectory (.directory entries) = true ∧
          Name.pathLimit < Name.size p.text ∧ x = ⟨.tooLong, p⟩) := fun h ↦ hshort h.2.1
      split
      next hlist =>
        obtain ⟨hpass, hread⟩ := (Bool.and_eq_true _ _).mp hlist
        refine (gathers_projectPathsIn place p entries hread).congr (fun x ↦ ?_) fun q ↦ ?_
        · exact ((or_iff_right (hself x)).trans (and_iff_right hpass)).symm
        · exact (and_iff_right hpass).symm
      next hclosed =>
        -- What is reached through the directory around it and has something below is listed.
        have hlist {q : Path} {inner : Entry} (hpass : t.canPass place.tail = true)
            (hbelow : t.Below place p (.directory entries) q inner) : False :=
          hclosed ((Bool.and_eq_true _ _).mpr ⟨hpass, hbelow.canRead⟩)
        refine gathers_empty ?_ fun q ⟨hpass, _, hbelow, _⟩ ↦ hlist hpass hbelow
        rintro x (hx | ⟨hpass, _, hbelow, -⟩)
        · exact hself x hx
        · exact hlist hpass hbelow
termination_by sizeOf e

theorem gathers_projectPathsIn (place : List Text) (p : Path) (entries : List (Text × Entry))
    (hread : t.canRead place = true) :
    Gathers (IsOverlongBelow t place p (.directory entries))
      (IsNamedBelow t place p (.directory entries)) (projectPathsIn t place p entries) := by
  cases entries with
  | nil =>
    rw [projectPathsIn]
    exact gathers_empty (fun x ⟨_, hbelow, _⟩ ↦ not_below_nil hbelow)
      fun q ⟨_, hbelow, _⟩ ↦ not_below_nil hbelow
  | cons entry rest =>
    obtain ⟨name, e⟩ := entry
    rw [projectPathsIn_cons]
    have hhere : Gathers (fun _ ↦ False) (fun q ↦ isProjectName name = true ∧ q = p.child name)
        (.ok (if isProjectName name then [p.child name] else [])) :=
      ⟨fun _ ↦ not_false, fun q ↦ by split <;> simp_all⟩
    refine ((hhere.append (gathers_projectPaths (name :: place) (p.child name) e)).append
      (gathers_projectPathsIn place p rest hread)).congr (fun x ↦ ?_)
        fun q ↦ (isNamedBelow_cons_iff hread).symm
    rw [isOverlongBelow_cons_iff hread, false_or]
termination_by sizeOf entries

end

end

/-! ## Texts of paths -/

namespace Name

theorem isPossible_append (a b : Text) :
    isPossible (a ++ b) = (isPossible a && isPossible b) :=
  List.all_append

theorem isPossible_joined (names : List Text) :
    isPossible (Text.joined "/" names) = names.all isPossible := by
  have hslash : isPossible ("/" : Text) = true := by decide
  induction names with
  | nil => rfl
  | cons name rest ih =>
    cases rest with
    | nil => simp [Text.joined]
    | cons next rest =>
      rw [Text.joined, List.intercalate_cons_cons, isPossible_append, isPossible_append, hslash,
        Bool.and_true, ← Text.joined, ih]
      exact List.all_cons.symm

end Name

/-- The text of a path is possible if its names are. -/
theorem Path.isPossible_text (p : Path) :
    Name.isPossible p.text = p.parts.all Name.isPossible := by
  have hroot : Name.isPossible p.root.text = true := by cases p.root <;> decide
  have hbody : Name.isPossible (p.root.text ++ Text.joined "/" p.parts) =
      p.parts.all Name.isPossible := by
    rw [Name.isPossible_append, hroot, Bool.true_and, Name.isPossible_joined]
  rw [text, ← hbody]
  split
  next hempty =>
    rw [List.isEmpty_iff.mp hempty]
    decide
  next => rfl

/-! ## What an argument stands for -/

namespace Tree

/-- The paths that an argument stands for, each with what stands there: a document for itself, a
directory for everything below it that has the name of a project document, be it a file or not. -/
inductive StandsFor (t : Tree) (p : Path) : Path → Entry → Prop
  | file {bytes : List UInt8} (h : t.find p = .ok (some (.file bytes)))
    (hsuffix : p.suffix ∈ documentSuffixes) : StandsFor t p p (.file bytes)
  | below {entries : List (Text × Entry)} {place : List Text} {q : Path} {e : Entry}
    (h : t.find p = .ok (some (.directory entries))) (hplace : t.place p = .ok place)
    (hbelow : t.Below place p (.directory entries) q e) (hname : isProjectName q.name = true) :
    StandsFor t p q e

/-- The errors that an argument breaks a search off with: its own, if it cannot be looked up, and
those of the directories below it whose paths are too long. -/
inductive Breaks (t : Tree) (p : Path) : AccessError → Prop
  | argument {x : AccessError} (h : t.find p = .error x) : Breaks t p x
  | below {entries inner : List (Text × Entry)} {place : List Text} {q : Path}
    (h : t.find p = .ok (some (.directory entries))) (hplace : t.place p = .ok place)
    (hbelow : t.Below place p (.directory entries) q (.directory inner))
    (hlong : Name.pathLimit < Name.size q.text) : Breaks t p ⟨.tooLong, q⟩

variable {t : Tree} {p : Path}

/-- The paths that an argument stands for, if a warning counts as none. -/
def pathsOf (t : Tree) (p : Path) : Except AccessError (List Path) :=
  (t.search p).map fun
    | .ok found => found
    | .error _ => []

/-- An argument that is found is found at its place. -/
theorem exists_place_of_find {e : Entry} (h : t.find p = .ok (some e)) :
    Name.isPossible p.text = true ∧
      ∃ place, t.place p = .ok place ∧ t.top.find? place.reverse = some e := by
  rw [find] at h
  split at h
  next => cases h
  next hpossible =>
    rw [Bool.not_eq_true, Bool.not_eq_false'] at hpossible
    split at h
    next => cases h
    next =>
      split at h
      next place hplace => exact ⟨hpossible, place, hplace, Except.ok.inj h⟩
      next => cases h
      next => cases h

theorem breaks_directory_iff {entries : List (Text × Entry)} {place : List Text}
    (h : t.find p = .ok (some (.directory entries))) (hplace : t.place p = .ok place)
    {x : AccessError} :
    t.Breaks p x ↔ IsOverlongBelow t place p (.directory entries) x := by
  constructor
  · rintro (hfind | ⟨hfind, hplace', hbelow, hlong⟩)
    · cases h.symm.trans hfind
    · cases h.symm.trans hfind
      cases hplace.symm.trans hplace'
      exact ⟨_, hbelow, hlong, rfl⟩
  · obtain ⟨refusal, q⟩ := x
    rintro ⟨inner, hbelow, hlong, rfl⟩
    exact .below h hplace hbelow hlong

theorem exists_standsFor_directory_iff {entries : List (Text × Entry)} {place : List Text}
    (h : t.find p = .ok (some (.directory entries))) (hplace : t.place p = .ok place) {q : Path} :
    (∃ e, t.StandsFor p q e) ↔ IsNamedBelow t place p (.directory entries) q := by
  constructor
  · rintro ⟨e, ⟨hfind, -⟩ | ⟨hfind, hplace', hbelow, hname⟩⟩
    · cases h.symm.trans hfind
    · cases h.symm.trans hfind
      cases hplace.symm.trans hplace'
      exact ⟨e, hbelow, hname⟩
  · rintro ⟨e, hbelow, hname⟩
    exact ⟨e, .below h hplace hbelow hname⟩

/-- Nothing but a directory breaks a search off, once it is found. -/
theorem not_breaks_of_find {found? : Option Entry} (h : t.find p = .ok found?)
    (hnone : ∀ e, found? = some e → e.isDirectory = false) (x : AccessError) :
    ¬ t.Breaks p x := by
  rintro (hfind | ⟨hfind, -, -, -⟩)
  · cases h.symm.trans hfind
  · cases h.symm.trans hfind
    cases hnone _ rfl

/-- And nothing but a document stands for itself. -/
theorem exists_standsFor_iff_of_find {found? : Option Entry} (h : t.find p = .ok found?)
    (hnone : ∀ e, found? = some e → e.isDirectory = false) {q : Path} :
    (∃ e, t.StandsFor p q e) ↔
      (∃ bytes, found? = some (.file bytes)) ∧ p.suffix ∈ documentSuffixes ∧ q = p := by
  constructor
  · rintro ⟨e, ⟨hfind, hsuffix⟩ | ⟨hfind, -, -, -⟩⟩
    · cases h.symm.trans hfind
      exact ⟨⟨_, rfl⟩, hsuffix, rfl⟩
    · cases h.symm.trans hfind
      cases hnone _ rfl
  · rintro ⟨⟨bytes, rfl⟩, hsuffix, rfl⟩
    exact ⟨_, .file h hsuffix⟩

theorem pathsOf_file {bytes : List UInt8} (h : t.find p = .ok (some (.file bytes))) :
    t.pathsOf p = .ok (if p.suffix ∈ documentSuffixes then [p] else []) := by
  by_cases hsuffix : p.suffix ∈ documentSuffixes <;>
    simp [pathsOf, search, h, hsuffix, bind, Except.bind, pure, Except.pure, Except.map]

theorem pathsOf_directory {entries : List (Text × Entry)}
    (h : t.find p = .ok (some (.directory entries))) :
    t.pathsOf p = t.projectPathsAt p entries := by
  simp only [pathsOf, search, h, bind, Except.bind, pure, Except.pure]
  cases t.projectPathsAt p entries <;> rfl

theorem gathers_projectPathsAt {place : List Text} (hplace : t.place p = .ok place)
    (entries : List (Text × Entry)) :
    Gathers (IsOverlongBelow t place p (.directory entries))
      (IsNamedBelow t place p (.directory entries)) (t.projectPathsAt p entries) := by
  rw [projectPathsAt, hplace]
  by_cases hread : t.canRead place = true
  · simp only [if_pos hread]
    exact gathers_projectPathsIn place p entries hread
  · simp only [if_neg hread]
    exact gathers_empty (fun x ⟨_, hbelow, _⟩ ↦ hread hbelow.canRead)
      fun q ⟨_, hbelow, _⟩ ↦ hread hbelow.canRead

theorem gathers_pathsOf (t : Tree) (p : Path) :
    Gathers (t.Breaks p) (fun q ↦ ∃ e, t.StandsFor p q e) (t.pathsOf p) := by
  cases hfind : t.find p with
  | error x =>
    rw [pathsOf, search, hfind]
    exact .argument hfind
  | ok found? =>
    cases found? with
    | none =>
      rw [pathsOf, search, hfind]
      refine gathers_empty (not_breaks_of_find hfind nofun) fun q ↦ ?_
      rw [exists_standsFor_iff_of_find hfind nofun]
      rintro ⟨⟨_, hfound⟩, -⟩
      cases hfound
    | some e =>
      cases e with
      | file bytes =>
        have hnone : ∀ e, some (Entry.file bytes) = some e → e.isDirectory = false := by
          rintro _ ⟨⟩
          rfl
        rw [pathsOf_file hfind]
        refine ⟨not_breaks_of_find hfind hnone, fun q ↦ ?_⟩
        refine Iff.trans ?_ (exists_standsFor_iff_of_find hfind hnone).symm
        split <;> simp_all
      | directory entries =>
        obtain ⟨-, place, hplace, -⟩ := exists_place_of_find hfind
        rw [pathsOf_directory hfind]
        exact (gathers_projectPathsAt hplace entries).congr
          (fun x ↦ (breaks_directory_iff hfind hplace).symm)
          fun q ↦ (exists_standsFor_directory_iff hfind hplace).symm
      | device =>
        have hnone : ∀ e, some Entry.device = some e → e.isDirectory = false := by
          rintro _ ⟨⟩
          rfl
        rw [pathsOf, search, hfind]
        refine gathers_empty (not_breaks_of_find hfind hnone) fun q ↦ ?_
        rw [exists_standsFor_iff_of_find hfind hnone]
        rintro ⟨⟨_, hfound⟩, -⟩
        cases hfound

/-! ## What a list of arguments stands for -/

theorem documents_searchAll_cons (t : Tree) (p : Path) (rest : List Path) :
    (t.searchAll (p :: rest)).documents =
      (do return (← t.pathsOf p) ++ (← (t.searchAll rest).documents)) := by
  rw [searchAll, pathsOf]
  cases t.search p with
  | error x => rfl
  | ok result =>
    cases hlater : (t.searchAll rest).documents <;> cases result <;> simp [hlater] <;> rfl

theorem gathers_searchAll (t : Tree) (paths : List Path) :
    Gathers (fun x ↦ ∃ p ∈ paths, t.Breaks p x) (fun q ↦ ∃ p ∈ paths, ∃ e, t.StandsFor p q e)
      (t.searchAll paths).documents := by
  induction paths with
  | nil => exact gathers_empty (by simp) (by simp)
  | cons p rest ih =>
    rw [documents_searchAll_cons]
    exact ((gathers_pathsOf t p).append ih).congr (by simp) (by simp)

/-! ## Looking up what was found -/

/-- A path of possible names that is not too long is looked up by following it. -/
theorem find_of_size_le (hpossible : ∀ name ∈ p.parts, Name.isPossible name = true)
    (hsize : Name.size p.text ≤ Name.pathLimit) :
    t.find p =
      match t.place p with
      | .ok place => .ok (t.top.find? place.reverse)
      | .error .absent => .ok none
      | .error (.refused r) => .error ⟨r, p⟩ := by
  have htext : Name.isPossible p.text = true := by
    rw [Path.isPossible_text, List.all_eq_true]
    exact hpossible
  rw [find, htext]
  exact if_neg (Nat.not_lt.mpr hsize)

theorem follow_append (t : Tree) (place names more : List Text) :
    t.follow place (names ++ more) = (do t.follow (← t.follow place names) more) := by
  induction names generalizing place with
  | nil => rfl
  | cons name rest ih =>
    simp only [List.cons_append, follow]
    split
    · split
      · rfl
      · split
        · rfl
        · split <;> exact ih _
    · rfl

theorem place_child (t : Tree) (p : Path) (name : Text) :
    t.place (p.child name) = (do t.follow (← t.place p) [name]) :=
  follow_append ..

/-- A path leads to a place where an entry stands, be the path too long or not. The entry is a sound
one, and the names of the path are such as a directory may have. -/
structure Shows (t : Tree) (p : Path) (place : List Text) (e : Entry) : Prop where
  isSound : e.isSound = true
  hasPlainNames : p.HasPlainNames
  possible : ∀ name ∈ p.parts, Name.isPossible name = true
  leads : t.place p = .ok place
  stands : t.top.find? place.reverse = some e

/-- Whether a path leads on from a directory that may not be passed. -/
def IsShut (t : Tree) (q : Path) : Prop :=
  ∃ p place name, q = p.child name ∧ t.place p = .ok place ∧ t.canPass place = false

namespace Shows

variable {place : List Text} {e : Entry} {entries : List (Text × Entry)} {name : Text}

/-- The names of a path to something in a directory. -/
theorem names_child (h : t.Shows p place (.directory entries)) (hmem : (name, e) ∈ entries) :
    (p.child name).HasPlainNames ∧
      ∀ n ∈ (p.child name).parts, Name.isPossible n = true := by
  obtain ⟨-, hproper, -⟩ := Entry.lookup_of_areSound (Entry.areSound_entries h.isSound) hmem
  simp only [Name.isProper, decide_eq_true_eq] at hproper
  obtain ⟨-, -, -, hslash, hpossible, -⟩ := hproper
  exact ⟨h.hasPlainNames.child hslash,
    List.forall_mem_append.mpr ⟨h.possible, List.forall_mem_singleton.mpr hpossible⟩⟩

theorem child (h : t.Shows p place (.directory entries)) (hpass : t.canPass place = true)
    (hmem : (name, e) ∈ entries) : t.Shows (p.child name) (name :: place) e := by
  obtain ⟨hplain, hpossible⟩ := h.names_child hmem
  obtain ⟨hlookup, hproper, he⟩ :=
    Entry.lookup_of_areSound (Entry.areSound_entries h.isSound) hmem
  simp only [Name.isProper, decide_eq_true_eq] at hproper
  obtain ⟨-, -, hup, -, -, hsize⟩ := hproper
  refine ⟨he, hplain, hpossible, ?_, ?_⟩
  · have hstep : t.follow place [name] = .ok (name :: place) := by
      rw [follow, h.stands]
      simp only [hpass, if_neg (Nat.not_lt.mpr hsize), if_neg hup]
      rfl
    rw [place_child, h.leads]
    exact hstep
  · rw [Entry.entries] at hlookup
    simp [Entry.find?_append, h.stands, Entry.find?, Entry.entries, hlookup]

/-- In a directory that may not be passed nothing is looked up. -/
theorem place_child_of_not_canPass (h : t.Shows p place (.directory entries))
    (hpass : t.canPass place = false) (name : Text) :
    t.place (p.child name) = .error (.refused .denied) := by
  have hstep : t.follow place [name] = .error (.refused .denied) := by
    rw [follow, h.stands]
    simp only [hpass]
    rfl
  rw [place_child, h.leads]
  exact hstep

/-- What the walk comes to is shown by its path, unless it stands in a directory that may not be
passed. -/
theorem below {q : Path} {inner : Entry} (h : t.Shows p place e)
    (hbelow : t.Below place p e q inner) :
    q.HasPlainNames ∧ (∀ name ∈ q.parts, Name.isPossible name = true) ∧
      ((∃ place, t.Shows q place inner) ∨
        t.IsShut q ∧ t.place q = .error (.refused .denied)) := by
  induction hbelow with
  | @child place p entries name e _ hmem =>
    obtain ⟨hplain, hpossible⟩ := h.names_child hmem
    refine ⟨hplain, hpossible, ?_⟩
    cases hpass : t.canPass place with
    | true => exact .inl ⟨_, h.child hpass hmem⟩
    | false =>
      exact .inr ⟨⟨p, place, name, rfl, h.leads, hpass⟩, h.place_child_of_not_canPass hpass name⟩
  | deeper _ hpass hmem _ ih => exact ih (h.child hpass hmem)

end Shows

/-- What is found at a path is shown there. -/
theorem shows_of_find (ht : t.top.isSound = true) (hp : p.HasPlainNames) {e : Entry}
    (h : t.find p = .ok (some e)) {place : List Text} (hplace : t.place p = .ok place) :
    t.Shows p place e := by
  obtain ⟨hpossible, place', hplace', hfind⟩ := exists_place_of_find h
  cases hplace.symm.trans hplace'
  rw [Path.isPossible_text, List.all_eq_true] at hpossible
  exact ⟨Entry.isSound_of_find? ht hfind, hp, hpossible, hplace, hfind⟩

/-- What an argument stands for has plain names and is found by its path, unless the path is too
long or leads on from a directory that may not be passed. -/
theorem StandsFor.find {q : Path} {e : Entry} (h : t.StandsFor p q e) (ht : t.top.isSound = true)
    (hp : p.HasPlainNames) : q.HasPlainNames ∧ (Name.size q.text ≤ Name.pathLimit →
      t.find q = .ok (some e) ∨ t.IsShut q ∧ t.find q = .error ⟨.denied, q⟩) := by
  cases h with
  | file hfind => exact ⟨hp, fun _ ↦ .inl hfind⟩
  | below hfind hplace hbelow =>
    obtain ⟨hplain, hpossible, hq⟩ := (shows_of_find ht hp hfind hplace).below hbelow
    refine ⟨hplain, fun hsize ↦ ?_⟩
    rw [find_of_size_le hpossible hsize]
    rcases hq with ⟨place, hshows⟩ | ⟨hshut, hdenied⟩
    · rw [hshows.leads]
      exact .inl (congrArg Except.ok hshows.stands)
    · rw [hdenied]
      exact .inr ⟨hshut, rfl⟩

/-! ## The documents of a search -/

theorem nodup_eraseDups {α : Type} [DecidableEq α] (xs : List α) : xs.eraseDups.Nodup := by
  cases xs with
  | nil => exact List.nodup_nil
  | cons x rest =>
    rw [List.eraseDups_cons, List.nodup_cons, List.mem_eraseDups]
    exact ⟨by simp, nodup_eraseDups _⟩
termination_by xs.length
decreasing_by exact Nat.lt_succ_of_le (List.length_filter_le ..)

/-- Paths without repetition, sorted, each before the next one. -/
theorem pairwise_mergeSort_eraseDups {paths : List Path} (h : ∀ p ∈ paths, p.HasPlainNames) :
    (paths.eraseDups.mergeSort Path.le).Pairwise fun p q ↦ p.le q = true ∧ q.le p = false := by
  have hmem {p : Path} (hp : p ∈ paths.eraseDups.mergeSort Path.le) : p.HasPlainNames :=
    h p (List.mem_eraseDups.mp (List.mem_mergeSort.mp hp))
  have hsorted : (paths.eraseDups.mergeSort Path.le).Pairwise fun p q ↦ p.le q = true :=
    List.pairwise_mergeSort (fun p q r ↦ @Path.le_trans p q r) Path.le_total _
  have hnodup := (List.mergeSort_perm paths.eraseDups Path.le).nodup_iff.mpr
    (nodup_eraseDups paths)
  refine (hsorted.and hnodup).imp_of_mem fun hp hq ⟨hle, hne⟩ ↦ ⟨hle, ?_⟩
  rw [← Bool.not_eq_true]
  exact fun hge ↦ hne (Path.eq_of_le_of_le (hmem hp) (hmem hq) hle hge)

/-- What a search for the documents of some arguments comes to, in a sound tree. It is broken off
only by an argument that cannot be looked up or by a directory below one whose path is too long.
Without such there is a list of paths, each before the next one, so that none is there twice however
the arguments overlap. It has exactly what the arguments stand for, and each of its paths leads to
that entry unless it is itself too long or leads on from a directory that may not be passed. -/
theorem documents_projectDocuments (t : Tree) (arguments : List Text)
    (ht : t.top.isSound = true) :
    (∀ x, (t.projectDocuments (arguments.map Path.ofText)).documents = .error x →
      ∃ p ∈ arguments.map Path.ofText, t.Breaks p x) ∧
    ∀ found, (t.projectDocuments (arguments.map Path.ofText)).documents = .ok found →
      (∀ p ∈ arguments.map Path.ofText, ∀ x, ¬ t.Breaks p x) ∧
      found.Pairwise (fun p q ↦ p.le q = true ∧ q.le p = false) ∧
      (∀ q, q ∈ found ↔ ∃ p ∈ arguments.map Path.ofText, ∃ e, t.StandsFor p q e) ∧
      ∀ p ∈ arguments.map Path.ofText, ∀ q e, t.StandsFor p q e →
        Name.size q.text ≤ Name.pathLimit →
          t.find q = .ok (some e) ∨ t.IsShut q ∧ t.find q = .error ⟨.denied, q⟩ := by
  have hplain : ∀ p ∈ arguments.map Path.ofText, p.HasPlainNames :=
    List.forall_mem_map.mpr fun argument _ ↦ Path.hasPlainNames_ofText argument
  have hgathers := gathers_searchAll t (arguments.map Path.ofText)
  simp only [projectDocuments]
  cases hdocuments : (t.searchAll (arguments.map Path.ofText)).documents with
  | error x =>
    rw [hdocuments] at hgathers
    refine ⟨fun y hy ↦ ?_, fun found hfound ↦ ?_⟩
    · cases hy
      exact hgathers
    · cases hfound
  | ok all =>
    rw [hdocuments] at hgathers
    obtain ⟨hbreaks, hfinds⟩ := hgathers
    refine ⟨fun x hx ↦ ?_, fun found hfound ↦ ?_⟩
    · cases hx
    · cases hfound
      refine ⟨fun p hp x hx ↦ hbreaks x ⟨p, hp, hx⟩, ?_, fun q ↦ ?_, fun p hp q e hq ↦ ?_⟩
      · refine pairwise_mergeSort_eraseDups fun q hq ↦ ?_
        obtain ⟨p, hp, e, hstands⟩ := (hfinds q).mp hq
        exact (hstands.find ht (hplain p hp)).1
      · rw [List.mem_mergeSort, List.mem_eraseDups]
        exact hfinds q
      · exact (hq.find ht (hplain p hp)).2

/-- A tree with a directory that has the name of a project document, and with one that may not be
passed. -/
def strayTree : Tree where
  top := .directory [("d", .directory
    [("z.yaml", .file []), ("x.project.yaml", .directory [("y.project.json", .file [])]),
      ("shut", .directory [("w.project.yml", .file [])])])]
  impassable := [["d", "shut"]]

def strayArguments : List Text := ["d", "d/z.yaml", "./d/x.project.yaml", "d"]

theorem exists_documents_strayTree : ∃ found,
    (strayTree.projectDocuments (strayArguments.map Path.ofText)).documents = .ok found := by
  have hall : (strayTree.searchAll (strayArguments.map Path.ofText)).documents = .ok
      (["d/x.project.yaml", "d/x.project.yaml/y.project.json", "d/shut/w.project.yml", "d/z.yaml",
        "d/x.project.yaml/y.project.json", "d/x.project.yaml",
        "d/x.project.yaml/y.project.json", "d/shut/w.project.yml"].map
          fun s ↦ Path.ofText (.ofString s)) := by
    decide +kernel
  exact ⟨_, by rw [projectDocuments, hall]; rfl⟩

/-- The first directory is found like the documents, and all of them once. What stands in the second
one is found, and cannot be looked up. -/
theorem documents_projectDocuments_strayTree :
    strayTree.top.isSound = true ∧
      ∃ found, (strayTree.projectDocuments (strayArguments.map Path.ofText)).documents =
          .ok found ∧
        found.Pairwise (fun p q ↦ p.le q = true ∧ q.le p = false) ∧
        .ofText "d/z.yaml" ∈ found ∧ .ofText "d/x.project.yaml" ∈ found ∧
        strayTree.find (.ofText "d/x.project.yaml") =
          .ok (some (.directory [("y.project.json", .file [])])) ∧
        .ofText "d/shut/w.project.yml" ∈ found ∧
        strayTree.find (.ofText "d/shut/w.project.yml") =
          .error ⟨.denied, .ofText "d/shut/w.project.yml"⟩ := by
  have hsound : strayTree.top.isSound = true := by decide +kernel
  obtain ⟨found, hfound⟩ := exists_documents_strayTree
  obtain ⟨-, hpairwise, hfinds, hshows⟩ :=
    (documents_projectDocuments strayTree strayArguments hsound).2 found hfound
  have hplace : strayTree.place (.ofText "d") = .ok ["d"] := rfl
  have hfile : strayTree.StandsFor (.ofText "d/z.yaml") (.ofText "d/z.yaml") (.file []) :=
    .file rfl (by decide +kernel)
  have hstray : strayTree.StandsFor (.ofText "d") (.ofText "d/x.project.yaml")
      (.directory [("y.project.json", .file [])]) :=
    .below rfl hplace (.child rfl (List.mem_cons_of_mem _ List.mem_cons_self)) (by decide +kernel)
  have hshut : strayTree.StandsFor (.ofText "d") (.ofText "d/shut/w.project.yml") (.file []) := by
    have hlast (x y z : Text × Entry) : z ∈ [x, y, z] := by simp
    exact .below rfl hplace (.deeper rfl rfl (hlast _ _ _) (.child rfl List.mem_cons_self))
      (by decide +kernel)
  have hd : Path.ofText "d" ∈ strayArguments.map Path.ofText := by decide +kernel
  have hthere : (strayTree.find (.ofText "d/x.project.yaml")).isOk = true := by decide +kernel
  have hlost : (strayTree.find (.ofText "d/shut/w.project.yml")).isOk = false := by decide +kernel
  refine ⟨hsound, found, hfound, hpairwise, ?_, ?_, ?_, ?_, ?_⟩
  · exact (hfinds _).mpr ⟨_, by decide +kernel, _, hfile⟩
  · exact (hfinds _).mpr ⟨_, hd, _, hstray⟩
  · obtain hfind | ⟨-, hdenied⟩ := hshows _ hd _ _ hstray (by decide +kernel)
    · exact hfind
    · rw [hdenied] at hthere
      cases hthere
  · exact (hfinds _).mpr ⟨_, hd, _, hshut⟩
  · obtain hfind | ⟨-, hdenied⟩ := hshows _ hd _ _ hshut (by decide +kernel)
    · rw [hfind] at hlost
      cases hlost
    · exact hdenied

end Tree

end EntityGraph.Files
