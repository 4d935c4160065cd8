import Mathlib.Data.List.TakeWhile
import EntityGraph.Lint.Run
import EntityGraph.Proofs.Value.Lines

/-!
# What can be printed

Every encoding has all of ASCII, and JSON is written in ASCII, so reports can always be printed as
JSON. The other two formats write file names and messages as they are, and it depends on these alone
whether their lines can be printed: a report is printable in both of them or in neither. Where some
line cannot be printed, the lines before it are, and nothing after them.
-/

namespace EntityGraph

/-! ## ASCII -/

/-- Whether all characters are in ASCII. -/
def IsAscii (cs : List Char) : Prop := ∀ c ∈ cs, c.toNat < 0x80

instance : DecidablePred IsAscii := List.decidableBAll fun c : Char ↦ c.toNat < 0x80

@[simp] theorem isAscii_nil : IsAscii [] := fun _ h ↦ absurd h List.not_mem_nil

@[simp] theorem isAscii_cons {c : Char} {cs : List Char} :
    IsAscii (c :: cs) ↔ c.toNat < 0x80 ∧ IsAscii cs := List.forall_mem_cons

@[simp] theorem isAscii_append {cs ds : List Char} :
    IsAscii (cs ++ ds) ↔ IsAscii cs ∧ IsAscii ds := List.forall_mem_append

theorem isAscii_replicate {c : Char} (h : c.toNat < 0x80) (n : Nat) :
    IsAscii (List.replicate n c) := fun _ hd ↦ List.eq_of_mem_replicate hd ▸ h

theorem isAscii_intercalate {separator : List Char} (h : IsAscii separator)
    {parts : List (List Char)} (hparts : ∀ part ∈ parts, IsAscii part) :
    IsAscii (separator.intercalate parts) := by
  induction parts with
  | nil => exact isAscii_nil
  | cons part rest ih =>
    obtain ⟨hpart, hrest⟩ := List.forall_mem_cons.mp hparts
    cases rest with
    | nil => simpa using hpart
    | cons next rest =>
      rw [List.intercalate_cons_cons, isAscii_append, isAscii_append]
      exact ⟨⟨hpart, h⟩, ih hrest⟩

theorem digitChar_lt (k : Nat) : k.digitChar.toNat < 0x80 := by
  by_cases hk : k < 16
  · have hdigits : ∀ k < 16, (Nat.digitChar k).toNat < 0x80 := by decide
    exact hdigits k hk
  · have hnone : k.digitChar = '*' := by simp (disch := omega) only [Nat.digitChar, if_neg]
    rw [hnone]
    decide

theorem isAscii_hex (width n : Nat) : IsAscii (Text.hex width n) :=
  isAscii_append.mpr ⟨isAscii_replicate (by decide) _,
    forall_mem_toDigits _ digitChar_lt (by decide) n⟩

theorem isAscii_signedDigits (n : Int) : IsAscii (signedDigits n) := by
  have hdigits : IsAscii (decimalDigits n.natAbs) :=
    forall_mem_toDigits _ digitChar_lt (by decide) _
  rw [signedDigits]
  split
  next => exact isAscii_cons.mpr ⟨by decide, hdigits⟩
  next => exact hdigits

theorem isAscii_repr (n : Int) : IsAscii n.repr.toList :=
  forall_mem_repr _ digitChar_lt (by decide) n

theorem Binary64.isAscii_text (x : Binary64) : IsAscii x.text.toList :=
  forall_mem_text _ digitChar_lt (by simp) x

/-! ## JSON -/

namespace Json

theorem isAscii_unitEscape (n : Nat) : IsAscii (unitEscape n) :=
  isAscii_cons.mpr ⟨by decide, isAscii_cons.mpr ⟨by decide, isAscii_hex 4 n⟩⟩

theorem isAscii_writeChar (c : Char) : IsAscii (writeChar c) := by
  rw [writeChar]
  split
  next hc =>
    obtain rfl | rfl := hc
    · decide
    · decide
  next =>
    iterate 5
      split
      · decide
    split
    next hc =>
      have hlast : c.toNat ≤ 0x7E := UInt32.le_iff_toNat_le.mp (Char.le_def.mp hc.2)
      exact isAscii_cons.mpr ⟨by omega, isAscii_nil⟩
    next =>
      extract_lets n m
      split
      next => exact isAscii_unitEscape _
      next => exact isAscii_append.mpr ⟨isAscii_unitEscape _, isAscii_unitEscape _⟩

theorem isAscii_writeText (t : Text) : IsAscii (writeText t).toList := by
  have hpoints : IsAscii (t.flatMap writePoint) := by
    refine List.forall_mem_flatMap.mpr fun x _ ↦ ?_
    cases x with
    | char c => exact isAscii_writeChar c
    | half offset => exact isAscii_unitEscape _
  rw [writeText, String.toList_ofList]
  exact isAscii_append.mpr ⟨isAscii_cons.mpr ⟨by decide, hpoints⟩, by decide⟩

theorem isAscii_writeScalar (v : Value) : IsAscii (writeScalar v).toList := by
  cases v with
  | bool b => cases b <;> decide
  | int n =>
    rw [writeScalar, String.toList_ofList]
    exact isAscii_signedDigits n
  | float x =>
    cases x with
    | finite isNegative units => exact Binary64.isAscii_text _
    | infinite isNegative => cases isNegative <;> decide
    | nan payload =>
      change IsAscii "NaN".toList
      decide
  | str t => exact isAscii_writeText t
  | _ =>
    change IsAscii "null".toList
    decide

theorem isAscii_writeName (v : Value) : IsAscii (writeName v).toList := by
  unfold writeName
  split <;> exact isAscii_writeText _

theorem isAscii_lineStart (depth : Nat) : IsAscii (lineStart depth).toList := by
  have hblanks : IsAscii (List.replicate (2 * depth) ' ') := isAscii_replicate (by decide) _
  simp only [lineStart, String.toList_append, String.toList_ofList]
  exact isAscii_append.mpr ⟨by decide, hblanks⟩

theorem isAscii_block (depth : Nat) {left right : String} (hleft : IsAscii left.toList)
    (hright : IsAscii right.toList) {parts : List String}
    (hparts : ∀ part ∈ parts, IsAscii part.toList) :
    IsAscii (block depth left right parts).toList := by
  have hseparator : IsAscii ("," ++ lineStart (depth + 1)).toList := by
    rw [String.toList_append]
    exact isAscii_append.mpr ⟨by decide, isAscii_lineStart _⟩
  rw [block]
  split
  next =>
    rw [String.toList_append]
    exact isAscii_append.mpr ⟨hleft, hright⟩
  next =>
    simp only [String.toList_append, String.toList_intercalate, isAscii_append] at hseparator ⊢
    exact ⟨⟨⟨⟨hleft, isAscii_lineStart _⟩,
      isAscii_intercalate (isAscii_append.mpr hseparator) (List.forall_mem_map.mpr hparts)⟩,
      isAscii_lineStart _⟩, hright⟩

mutual

/-- JSON is written in ASCII, whatever texts are in it. -/
theorem isAscii_prettyAt (depth : Nat) (v : Value) : IsAscii (prettyAt depth v).toList := by
  cases v with
  | seq items =>
    rw [prettyAt]
    exact isAscii_block depth (by decide) (by decide) (isAscii_prettyItems _ items)
  | map entries =>
    rw [prettyAt]
    exact isAscii_block depth (by decide) (by decide) (isAscii_prettyEntries _ entries)
  | _ => exact isAscii_writeScalar _

theorem isAscii_prettyItems (depth : Nat) (items : List Value) :
    ∀ part ∈ prettyItems depth items, IsAscii part.toList := by
  cases items with
  | nil => exact fun _ h ↦ absurd h List.not_mem_nil
  | cons v rest =>
    exact List.forall_mem_cons.mpr ⟨isAscii_prettyAt depth v, isAscii_prettyItems depth rest⟩

theorem isAscii_prettyEntries (depth : Nat) (entries : List (Value × Value)) :
    ∀ part ∈ prettyEntries depth entries, IsAscii part.toList := by
  match entries with
  | [] => exact fun _ h ↦ absurd h List.not_mem_nil
  | (k, v) :: rest =>
    refine List.forall_mem_cons.mpr ⟨?_, isAscii_prettyEntries depth rest⟩
    simp only [String.toList_append, isAscii_append]
    exact ⟨⟨isAscii_writeName k, by decide⟩, isAscii_prettyAt depth v⟩

end

end Json

/-! ## Encodings -/

namespace Text.Encoding

variable {enc : Encoding}

@[simp] theorem accepts_cons {x : CodePoint} {t : Text} :
    enc.accepts (x :: t) = (enc.has x && enc.accepts t) := List.all_cons

@[simp] theorem accepts_append {s t : Text} :
    enc.accepts (s ++ t) = (enc.accepts s && enc.accepts t) := List.all_append

/-- Every encoding has all of ASCII. -/
theorem accepts_ofChars {cs : List Char} (h : IsAscii cs) : enc.accepts (ofChars cs) = true := by
  rw [accepts, ofChars, List.all_map, List.all_eq_true]
  exact fun c hc ↦ enc.has_of_code_lt c (h c hc)

theorem accepts_ofString {s : String} (h : IsAscii s.toList) : enc.accepts (ofString s) = true :=
  accepts_ofChars h

/-- A text is refused exactly if it is not accepted. -/
theorem refusal?_eq_none_iff {t : Text} : enc.refusal? t = none ↔ enc.accepts t = true := by
  have hnil : t.dropWhile enc.has = [] ↔ enc.accepts t = true := by
    rw [List.dropWhile_eq_nil_iff, accepts, List.all_eq_true]
  rw [← hnil, refusal?]
  split
  next h => exact iff_of_true rfl h
  next h =>
    rw [h]
    exact iff_of_false (fun hnone ↦ by cases hnone) (List.cons_ne_nil _ _)

end Text.Encoding

/-! ## Reports -/

namespace Lint

/-- Whether an encoding has all that is said of a file, its name included. A report that says
nothing is printable whatever the name. -/
def Report.IsPrintable (enc : Text.Encoding) (r : Report) : Prop :=
  ∀ e ∈ r.errors ++ r.warnings, enc.accepts r.file.text = true ∧ enc.accepts e.message = true

/-- Whether reports can be printed in the format that is asked for. -/
def Options.IsPrintable (enc : Text.Encoding) (o : Options) (rs : List Report) : Prop :=
  o.format = some .json ∨ ∀ r ∈ rs, r.IsPrintable enc

section

variable {enc : Text.Encoding}

theorem accepts_toString (n : Int) : enc.accepts (toString n) = true :=
  Text.Encoding.accepts_ofString (isAscii_repr n)

theorem accepts_annotate {kind : String} (hkind : IsAscii kind.toList) {file : Files.Path}
    {e : Entry} : enc.accepts (annotate kind file e) = true ↔
      enc.accepts file.text = true ∧ enc.accepts e.message = true := by
  have hcolons : enc.accepts "::" = true := Text.Encoding.accepts_ofString (by decide)
  have hfile : enc.accepts " file=" = true := Text.Encoding.accepts_ofString (by decide)
  have hline : enc.accepts ",line=" = true := Text.Encoding.accepts_ofString (by decide)
  have hcolumn : enc.accepts ",col=" = true := Text.Encoding.accepts_ofString (by decide)
  have hkind : enc.accepts kind = true := Text.Encoding.accepts_ofString hkind
  have hnil : enc.accepts [] = true := rfl
  rw [annotate]
  split <;> simp only [Text.Encoding.accepts_append, accepts_toString, hcolons, hfile, hline,
    hcolumn, hkind, hnil, Bool.true_and, Bool.and_true, Bool.and_eq_true]

theorem accepts_entryLine {label : String} (hlabel : IsAscii label.toList) {e : Entry} :
    enc.accepts (entryLine label e) = true ↔ enc.accepts e.message = true := by
  have hblanks : enc.accepts "  " = true := Text.Encoding.accepts_ofString (by decide)
  have hcolon : enc.accepts ":" = true := Text.Encoding.accepts_ofString (by decide)
  have hmessage : enc.accepts ": " = true := Text.Encoding.accepts_ofString (by decide)
  have hlabel : enc.accepts label = true := Text.Encoding.accepts_ofString hlabel
  have hnil : enc.accepts [] = true := rfl
  rw [entryLine]
  split <;> simp only [Text.Encoding.accepts_append, accepts_toString, hblanks, hcolon, hmessage,
    hlabel, hnil, Bool.true_and, Bool.and_true]

theorem forall_accepts_annotations_iff {r : Report} :
    (∀ line ∈ r.annotations, enc.accepts line = true) ↔ r.IsPrintable enc := by
  have herror : IsAscii "error".toList := by decide
  have hwarning : IsAscii "warning".toList := by decide
  rw [Report.annotations, Report.IsPrintable, List.forall_mem_append, List.forall_mem_append]
  simp only [List.forall_mem_map, accepts_annotate herror, accepts_annotate hwarning]

/-- The name of the file is on a line of its own, in front of everything that is said of it. -/
theorem forall_accepts_reportLines_iff {r : Report} :
    (∀ line ∈ r.lines, enc.accepts line = true) ↔ r.IsPrintable enc := by
  have herror : IsAscii "ERROR".toList := by decide
  have hwarning : IsAscii "WARNING".toList := by decide
  have hfile : enc.accepts ("\n" ++ r.file.text ++ ":" : Text) = enc.accepts r.file.text := by
    have hbreak : enc.accepts "\n" = true := Text.Encoding.accepts_ofString (by decide)
    have hcolon : enc.accepts ":" = true := Text.Encoding.accepts_ofString (by decide)
    simp only [Text.Encoding.accepts_append, hbreak, hcolon, Bool.true_and, Bool.and_true]
  rw [Report.lines, Report.IsPrintable]
  split
  next hempty =>
    simp only [Bool.and_eq_true, List.isEmpty_iff] at hempty
    simp [hempty]
  next hsome =>
    obtain ⟨e, he⟩ : ∃ e, e ∈ r.errors ++ r.warnings := by
      refine List.exists_mem_of_ne_nil _ fun hnil ↦ hsome ?_
      simpa using hnil
    rw [List.forall_mem_cons, hfile, List.forall_mem_append, List.forall_mem_append]
    simp only [List.forall_mem_map, accepts_entryLine herror, accepts_entryLine hwarning]
    rw [← List.forall_mem_append, ← List.forall_mem_append]
    exact ⟨fun h e he ↦ ⟨h.1, h.2 e he⟩, fun h ↦ ⟨(h e he).1, fun e he ↦ (h e he).2⟩⟩

/-- What is printed for people can be printed exactly if what is printed for a workflow can, and
JSON always can. -/
theorem forall_accepts_lines_iff {o : Options} {rs : List Report} :
    (∀ line ∈ o.lines rs, enc.accepts line = true) ↔ o.IsPrintable enc rs := by
  have hhuman : (∀ line ∈ rs.flatMap Report.lines, enc.accepts line = true) ↔
      ∀ r ∈ rs, r.IsPrintable enc := by
    simp only [List.forall_mem_flatMap, forall_accepts_reportLines_iff]
  have hannotations : (∀ line ∈ rs.flatMap Report.annotations, enc.accepts line = true) ↔
      ∀ r ∈ rs, r.IsPrintable enc := by
    simp only [List.forall_mem_flatMap, forall_accepts_annotations_iff]
  have hjson : ∀ line ∈ [(Json.pretty (summary rs) : Text)], enc.accepts line = true :=
    List.forall_mem_singleton.mpr (Text.Encoding.accepts_ofString (Json.isAscii_prettyAt 0 _))
  rw [Options.lines, Options.IsPrintable]
  cases o.format with
  | none => exact hhuman.trans (or_iff_right (by decide)).symm
  | some f =>
    cases f with
    | human => exact hhuman.trans (or_iff_right (by decide)).symm
    | json => exact iff_of_true hjson (.inl rfl)
    | annotations => exact hannotations.trans (or_iff_right (by decide)).symm

end

end Lint

end EntityGraph
