import Mathlib.Data.List.Basic
import EntityGraph.Value.Text

/-!
# Texts on one line

Which texts have no line break. Whatever is written between quotes has none, because a line break
has no visible form and is written as an escape; numbers and dates are written with digits and a few
signs. So a value as messages show it is on one line, whatever texts it holds.
-/

namespace EntityGraph

/-! ## Digits -/

/-- What holds of all digits holds of everything in the digits of a number. -/
theorem forall_mem_toDigits (p : Char → Prop) (hdigit : ∀ k : Nat, p k.digitChar) {base : Nat}
    (hbase : 1 < base) (n : Nat) : ∀ c ∈ Nat.toDigits base n, p c := by
  induction n using Nat.strongRecOn with
  | ind n ih =>
    rw [Nat.toDigits_eq_if hbase]
    split
    next => exact List.forall_mem_singleton.mpr (hdigit n)
    next hn =>
      have hlt : n / base < n := Nat.div_lt_self (by omega) hbase
      exact List.forall_mem_append.mpr ⟨ih _ hlt, List.forall_mem_singleton.mpr (hdigit _)⟩

theorem forall_mem_repr (p : Char → Prop) (hdigit : ∀ k : Nat, p k.digitChar) (hminus : p '-')
    (n : Int) : ∀ c ∈ n.repr.toList, p c := by
  have hdigits (k : Nat) : ∀ c ∈ k.repr.toList, p c := by
    rw [Nat.repr, String.toList_ofList]
    exact forall_mem_toDigits p hdigit (by decide) k
  cases n with
  | ofNat k => exact hdigits k
  | negSucc k =>
    rw [show (Int.negSucc k).repr = "-" ++ (k + 1).repr from rfl, String.toList_append]
    exact List.forall_mem_append.mpr ⟨List.forall_mem_singleton.mpr hminus, hdigits _⟩

theorem digitChar_ne_newline (k : Nat) : k.digitChar ≠ '\n' := Nat.digitChar_ne '\n' (by decide)

theorem newline_notMem_toDigits {base : Nat} (h : 1 < base) (n : Nat) :
    '\n' ∉ Nat.toDigits base n := fun hn ↦
  forall_mem_toDigits (· ≠ '\n') digitChar_ne_newline h n _ hn rfl

@[simp] theorem newline_notMem_decimalDigits (n : Nat) : '\n' ∉ decimalDigits n :=
  newline_notMem_toDigits (by decide) n

@[simp] theorem newline_notMem_signedDigits (n : Int) : '\n' ∉ signedDigits n := by
  rw [signedDigits]
  split <;> simp

@[simp] theorem newline_notMem_hex (width n : Nat) : '\n' ∉ Text.hex width n := by
  simp [Text.hex, newline_notMem_toDigits]

@[simp] theorem newline_notMem_repr (n : Int) : '\n' ∉ n.repr.toList := fun hn ↦
  forall_mem_repr (· ≠ '\n') digitChar_ne_newline (by decide) n _ hn rfl

theorem mem_intercalate {α : Type} {x : α} {separator : List α} (h : x ∉ separator)
    {parts : List (List α)} : x ∈ separator.intercalate parts ↔ ∃ part ∈ parts, x ∈ part := by
  induction parts with
  | nil => simp
  | cons part rest ih =>
    cases rest with
    | nil => simp
    | cons next rest =>
      rw [List.intercalate_cons_cons, List.mem_append, List.mem_append, ih]
      simp [h]

theorem notMem_intercalate {α : Type} {x : α} {separator : List α} (h : x ∉ separator)
    {parts : List (List α)} (hparts : ∀ part ∈ parts, x ∉ part) :
    x ∉ separator.intercalate parts := by
  rw [mem_intercalate h]
  rintro ⟨part, hpart, hx⟩
  exact hparts part hpart hx

/-! ## Texts -/

namespace Text

/-- Whether a text has no line break. -/
def IsLine (t : Text) : Prop := .char '\n' ∉ t

instance (t : Text) : Decidable t.IsLine := inferInstanceAs (Decidable (_ ∉ _))

@[simp] theorem isLine_nil : IsLine [] := List.not_mem_nil

@[simp] theorem isLine_cons {x : CodePoint} {t : Text} :
    IsLine (x :: t) ↔ .char '\n' ≠ x ∧ t.IsLine := by
  rw [IsLine, List.mem_cons, not_or]
  rfl

@[simp] theorem isLine_append {s t : Text} : IsLine (s ++ t) ↔ s.IsLine ∧ t.IsLine := by
  rw [IsLine, List.mem_append, not_or]
  rfl

theorem isLine_joined_iff {separator : Text} (h : separator.IsLine) {ts : List Text} :
    (joined separator ts).IsLine ↔ ∀ t ∈ ts, t.IsLine := by
  rw [IsLine, joined, mem_intercalate h]
  simp only [not_exists, not_and]
  rfl

theorem isLine_joined {separator : Text} (h : separator.IsLine) {ts : List Text}
    (hts : ∀ t ∈ ts, t.IsLine) : (joined separator ts).IsLine :=
  (isLine_joined_iff h).mpr hts

theorem isLine_listed {ts : List Text} (h : ∀ t ∈ ts, t.IsLine) : (joined ", " ts).IsLine :=
  isLine_joined (by decide) h

@[simp] theorem isLine_ofChars {cs : List Char} : IsLine (ofChars cs) ↔ '\n' ∉ cs := by
  simp [IsLine, ofChars]

@[simp] theorem isLine_ofString {s : String} : IsLine (ofString s) ↔ '\n' ∉ s.toList :=
  isLine_ofChars

/-! ### Quotes -/

@[simp] theorem quoteFor_ne_newline (t : Text) : '\n' ≠ quoteFor t := by
  rw [quoteFor]
  split <;> decide

@[simp] theorem newline_notMem_escapeCode (n : Nat) : '\n' ∉ escapeCode n := by
  rw [escapeCode]
  split
  next => simp
  next => split <;> simp

theorem newline_notMem_quoteChar {quote : Char} (h : '\n' ≠ quote) (c : Char) :
    '\n' ∉ quoteChar quote c := by
  rw [quoteChar]
  split
  next hc =>
    obtain rfl | rfl := hc
    · simpa using h
    · decide
  next =>
    -- A line break is written by its letter, so what stands for itself is none.
    split
    next => decide
    next hc =>
      split
      next => decide
      next =>
        split
        next => decide
        next =>
          split
          next => simpa using Ne.symm hc
          next => exact newline_notMem_escapeCode _

theorem isLine_quoted (t : Text) : (quoted t).IsLine := by
  have hquote := quoteFor_ne_newline t
  have hpoint (x : CodePoint) : '\n' ∉ quotePoint (quoteFor t) x := by
    cases x with
    | char c => exact newline_notMem_quoteChar hquote c
    | half offset => exact newline_notMem_escapeCode _
  simp only [quoted, isLine_ofChars, List.mem_append, List.mem_cons, List.mem_flatMap, not_or,
    List.not_mem_nil, not_false_eq_true, and_true]
  exact ⟨⟨hquote, fun ⟨x, _, hx⟩ ↦ hpoint x hx⟩, hquote⟩

theorem isLine_quotedBytes (bs : List UInt8) : (quotedBytes bs).IsLine := by
  have hquote := quoteFor_ne_newline (ofChars (bs.map fun b ↦ Char.ofNat b.toNat))
  have hbyte (b : UInt8) :
      '\n' ∉ quoteByte (quoteFor (ofChars (bs.map fun b ↦ Char.ofNat b.toNat))) b := by
    rw [quoteByte]
    split
    next => exact newline_notMem_quoteChar hquote _
    next => simp
  simp only [quotedBytes, isLine_ofChars, List.mem_append, List.mem_cons, List.mem_flatMap, not_or,
    List.not_mem_nil, not_false_eq_true, and_true]
  exact ⟨⟨by decide, hquote, fun ⟨b, _, hb⟩ ↦ hbyte b hb⟩, hquote⟩

end Text

/-! ## Numbers and dates -/

namespace Binary64

section

variable (p : Char → Prop) (hdigit : ∀ k : Nat, p k.digitChar)
  (hsign : ∀ c ∈ ['.', '-', '+', 'e', 'i', 'n', 'f', 'a'], p c)

include hdigit hsign

theorem forall_mem_exponentText (e : Int) : ∀ c ∈ exponentText e, p c := by
  have hdigits : ∀ c ∈ decimalDigits e.natAbs, p c := forall_mem_toDigits p hdigit (by decide) _
  have hzeros (n : Nat) : ∀ c ∈ List.replicate n '0', p c :=
    fun c hc ↦ List.eq_of_mem_replicate hc ▸ hdigit 0
  refine List.forall_mem_cons.mpr ⟨hsign 'e' (by simp), List.forall_mem_cons.mpr ⟨?_, ?_⟩⟩
  · split <;> exact hsign _ (by simp)
  · exact List.forall_mem_append.mpr ⟨hzeros _, hdigits⟩

theorem forall_mem_magnitudeText (d : Decimal) : ∀ c ∈ magnitudeText d, p c := by
  have hdigits : ∀ c ∈ decimalDigits d.digits, p c := forall_mem_toDigits p hdigit (by decide) _
  have hzeros (n : Nat) : ∀ c ∈ List.replicate n '0', p c :=
    fun c hc ↦ List.eq_of_mem_replicate hc ▸ hdigit 0
  have hpoint := hsign '.' (by simp)
  have hexponent := forall_mem_exponentText p hdigit hsign
  simp only [magnitudeText]
  split
  next =>
    split
    next =>
      simp only [List.forall_mem_append, List.forall_mem_cons]
      exact ⟨⟨⟨hdigit 0, hpoint, fun _ h ↦ absurd h List.not_mem_nil⟩, hzeros _⟩, hdigits⟩
    next =>
      split
      next =>
        simp only [List.forall_mem_append, List.forall_mem_cons]
        exact ⟨⟨hdigits, hzeros _⟩, hpoint, hdigit 0, fun _ h ↦ absurd h List.not_mem_nil⟩
      next =>
        simp only [List.forall_mem_append, List.forall_mem_cons]
        exact ⟨fun c hc ↦ hdigits c (List.mem_of_mem_take hc), hpoint,
          fun c hc ↦ hdigits c (List.mem_of_mem_drop hc)⟩
  next =>
    split
    next => exact fun _ h ↦ absurd h List.not_mem_nil
    next c hc =>
      rw [hc, List.forall_mem_singleton] at hdigits
      exact List.forall_mem_cons.mpr ⟨hdigits, hexponent _⟩
    next c rest _ hc =>
      rw [hc, List.forall_mem_cons] at hdigits
      simp only [List.cons_append, List.forall_mem_cons, List.forall_mem_append]
      exact ⟨hdigits.1, hpoint, hdigits.2, hexponent _⟩

/-- A number with a point is written with digits and a few signs. -/
theorem forall_mem_text (x : Binary64) : ∀ c ∈ x.text.toList, p c := by
  cases x with
  | finite isNegative units =>
    have hbody : ∀ c ∈ (if units = 0 then ['0', '.', '0'] else magnitudeText (shortest units)),
        p c := by
      split
      next =>
        simp only [List.forall_mem_cons]
        exact ⟨hdigit 0, hsign _ (by simp), hdigit 0, fun _ h ↦ absurd h List.not_mem_nil⟩
      next => exact forall_mem_magnitudeText p hdigit hsign _
    simp only [text, String.toList_ofList]
    split
    next => exact List.forall_mem_cons.mpr ⟨hsign _ (by simp), hbody⟩
    next => exact hbody
  | infinite isNegative =>
    have hword : (infinite isNegative).text.toList ⊆ ['.', '-', '+', 'e', 'i', 'n', 'f', 'a'] := by
      cases isNegative <;> decide
    exact fun c hc ↦ hsign c (hword hc)
  | nan payload =>
    have hword : "nan".toList ⊆ ['.', '-', '+', 'e', 'i', 'n', 'f', 'a'] := by decide
    exact fun c hc ↦ hsign c (hword hc)

end

@[simp] theorem newline_notMem_text (x : Binary64) : '\n' ∉ x.text.toList := fun hx ↦
  forall_mem_text (· ≠ '\n') digitChar_ne_newline (by simp) x _ hx rfl

end Binary64

@[simp] theorem newline_notMem_commaSeparated (ns : List Nat) :
    '\n' ∉ (commaSeparated ns).toList := by
  rw [commaSeparated, String.toList_intercalate]
  exact notMem_intercalate (by decide) (by simp)

@[simp] theorem newline_notMem_shownDuration (minutes : Int) :
    '\n' ∉ (shownDuration minutes).toList := by
  -- Its equation takes the arithmetic apart, which the proof does not need.
  delta shownDuration
  extract_lets days seconds parts
  have hparts : '\n' ∉ [',', ' '].intercalate (parts.map String.toList) := by
    refine notMem_intercalate (by decide) (List.forall_mem_map.mpr fun part hpart ↦ ?_)
    obtain hpart | hpart := List.mem_append.mp hpart
    · split at hpart <;> simp_all
    · split at hpart <;> simp_all
  split <;> simp [hparts]

namespace Date

@[simp] theorem newline_notMem_shown (d : Date) : '\n' ∉ d.shown.toList := by simp [shown]

end Date

namespace Moment

@[simp] theorem newline_notMem_shown (t : Moment) : '\n' ∉ t.shown.toList := by
  delta shown
  extract_lets tail zone numbers
  have hzone : '\n' ∉ zone.toList := by
    simp only [zone]
    split <;> simp
  simp [hzone]

end Moment

/-! ## Values -/

namespace Value

theorem isLine_enclosed {left right : Text} (hleft : left.IsLine) (hright : right.IsLine)
    {parts : List Text} (h : ∀ part ∈ parts, part.IsLine) :
    (enclosed left right parts).IsLine := by
  rw [enclosed, Text.isLine_append, Text.isLine_append]
  exact ⟨⟨hleft, Text.isLine_listed h⟩, hright⟩

mutual

/-- A value as messages show it is on one line. -/
theorem isLine_shown (v : Value) : v.shown.IsLine := by
  cases v with
  | null => decide
  | bool b => cases b <;> decide
  | int n => simp [shown]
  | float x => simp [shown]
  | str t => exact Text.isLine_quoted t
  | bytes bs => exact Text.isLine_quotedBytes bs
  | date d => simp [shown]
  | moment t => simp [shown]
  | seq items => exact isLine_enclosed (by decide) (by decide) (isLine_shownItems items)
  | pair a b =>
    refine isLine_enclosed (by decide) (by decide) ?_
    rw [List.forall_mem_cons, List.forall_mem_singleton]
    exact ⟨isLine_shown a, isLine_shown b⟩
  | map entries => exact isLine_enclosed (by decide) (by decide) (isLine_shownEntries entries)
  | set items =>
    cases items with
    | nil => decide
    | cons item rest =>
      exact isLine_enclosed (by decide) (by decide) (isLine_shownItems (item :: rest))

theorem isLine_shownItems (items : List Value) : ∀ t ∈ shownItems items, t.IsLine := by
  cases items with
  | nil => exact fun t ht ↦ absurd ht List.not_mem_nil
  | cons v rest => exact List.forall_mem_cons.mpr ⟨isLine_shown v, isLine_shownItems rest⟩

theorem isLine_shownEntries (entries : List (Value × Value)) :
    ∀ t ∈ shownEntries entries, t.IsLine := by
  match entries with
  | [] => exact fun t ht ↦ absurd ht List.not_mem_nil
  | (k, v) :: rest =>
    refine List.forall_mem_cons.mpr ⟨?_, isLine_shownEntries rest⟩
    rw [Text.isLine_append, Text.isLine_append]
    exact ⟨⟨isLine_shown k, by decide⟩, isLine_shown v⟩

end

end Value

end EntityGraph
