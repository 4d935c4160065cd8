import EntityGraph.Yaml.Token.Stream
import Mathlib.Algebra.Group.Nat.Defs

/-!
# Readings in a text

Why what is read at a place in a text fails. Almost everywhere the characters are no token, and that
is a flaw of the text. Two places ask for something that does not exist: an escape by a code of
eight digits may name no character, and a version may have more digits than can be read. Nothing
else goes wrong, and where one of these two does, it can be pointed to in the text.

A cursor always has an end of the text before it, so that every reading keeps one invariant, the
place of its cursor in the text, and says why it fails in terms of the whole text.
-/

namespace EntityGraph.Yaml

/-- The characters between the name of a version's directive and a number of the version: spaces,
the number before it, and a point. -/
def isVersionChar (c : Char) : Bool := c == ' ' || c.isDigit || c == '.'

/-- Why the tokens of a text fail. -/
inductive Unscannable (text : List Char) : Failure → Prop where
  | character : text.all isPrintable = false → Unscannable text .character
  | token : Unscannable text .token
  /-- An escape by a code that is no character's. -/
  | escape {before digits after : List Char} :
    text = before ++ ['\\', 'U'] ++ digits ++ after → digits.length = 8 →
      digits.all isHexDigit = true → 0x110000 ≤ Scalar.hexValue digits →
      Unscannable text (.escape (Scalar.hexValue digits))
  /-- A version with a number of too many digits. -/
  | version {before gap digits after : List Char} :
    text = before ++ ['%', 'Y', 'A', 'M', 'L'] ++ gap ++ digits ++ after →
      gap.all isVersionChar = true → digits.all Char.isDigit = true →
      Integer.digitLimit < digits.length →
      Unscannable text (.scalar (.tooManyDigits digits.length))

/-! ## Cursors -/

namespace Cursor

variable {text : List Char} {c : Cursor}

theorem rest_advance (c : Cursor) : c.advance.rest = c.rest.tail := by
  rw [advance]
  split
  next h => rw [h, List.tail_nil]
  next h => rw [h, List.tail_cons]

theorem rest_advanceBy (n : Nat) (c : Cursor) : (advanceBy n c).rest = c.rest.drop n := by
  induction n generalizing c with
  | zero => rfl
  | succ n ih => rw [advanceBy, ih, rest_advance, List.drop_tail]

/-- The characters of a class and what is left after them are all there was. -/
theorem append_rest_span (p : Char → Bool) (c : Cursor) :
    (c.span p).1 ++ (c.span p).2.rest = c.rest := by
  rw [span, rest_advanceBy]
  exact List.prefix_iff_eq_append.mp (List.takeWhile_prefix p)

theorem rest_eq_cons_of_peek {x : Char} (h : c.peek = x) (hx : x ≠ '\x00') :
    c.rest = x :: c.advance.rest := by
  rw [rest_advance]
  rw [peek] at h
  cases hrest : c.rest with
  | nil =>
    rw [hrest] at h
    exact absurd h.symm hx
  | cons y rest =>
    rw [hrest] at h
    exact congrArg (· :: rest) h

/-! ### Places in a text -/

/-- A cursor is in a text if an end of the text is left from it on. -/
def IsIn (text : List Char) (c : Cursor) : Prop := c.rest <:+ text

theorem IsIn.advanceBy (h : IsIn text c) (n : Nat) : IsIn text (c.advanceBy n) := by
  rw [IsIn, rest_advanceBy]
  exact (List.drop_suffix n c.rest).trans h

theorem IsIn.advance (h : IsIn text c) : IsIn text c.advance := h.advanceBy 1

theorem IsIn.span (h : IsIn text c) (p : Char → Bool) : IsIn text (c.span p).2 := h.advanceBy _

theorem IsIn.skip (h : IsIn text c) (p : Char → Bool) : IsIn text (c.skip p) := h.span p

theorem IsIn.takeBreak (h : IsIn text c) : IsIn text c.takeBreak.2 := by
  rw [Cursor.takeBreak]
  split
  next => exact h.advanceBy 2
  next =>
    split
    next => exact h.advance
    next =>
      split
      next => exact h.advance
      next => exact h
  next => exact h

end Cursor

/-! ## Readings -/

/-- A reading in a text fails only as the text may, and what it gives meets a condition. -/
inductive Reads {α : Type} (text : List Char) (P : α → Prop) : Except Failure α → Prop where
  | ok {a : α} : P a → Reads text P (.ok a)
  | error {f : Failure} : Unscannable text f → Reads text P (.error f)

namespace Reads

variable {α β : Type} {text : List Char} {P : α → Prop} {Q : β → Prop}

theorem token : Reads text P (.error .token) := .error .token

theorem bind {x : Except Failure α} {k : α → Except Failure β} (hx : Reads text P x)
    (hk : ∀ a, P a → Reads text Q (k a)) : Reads text Q (x >>= k) := by
  cases hx with
  | error hf => exact .error hf
  | ok ha => exact hk _ ha

theorem ite {p : Prop} [Decidable p] {x y : Except Failure α} (hx : p → Reads text P x)
    (hy : Reads text P y) : Reads text P (if p then x else y) := by
  split
  next h => exact hx h
  next => exact hy

end Reads

section

variable {text : List Char} {c : Cursor}

theorem Cursor.reads_restOfLine (h : c.IsIn text) : Reads text (IsIn text) c.restOfLine := by
  have hend {c : Cursor} (h : c.IsIn text) : Reads text (IsIn text)
      (if isBreakOrEnd c.peek then .ok c.takeBreak.2 else .error .token) := by
    split
    next => exact .ok h.takeBreak
    next => exact Reads.token
  rw [restOfLine]
  split
  next => exact hend ((h.skip _).skip _)
  next => exact hend (h.skip _)

/-! ## Names, tags and directives -/

namespace Property

theorem reads_readName (h : c.IsIn text) : Reads text (fun r ↦ r.2.IsIn text) (readName c) := by
  rw [readName]
  dsimp only
  split
  next => exact Reads.token
  next => exact .ok (h.advance.span _)

theorem reads_readBytes (bound : Nat) (h : c.IsIn text) :
    Reads text (fun r ↦ r.2.IsIn text) (readBytes bound c) := by
  induction bound generalizing c with
  | zero => exact .ok h
  | succ bound ih =>
    rw [readBytes]
    split
    next =>
      split
      next => exact (ih (h.advanceBy 3)).bind fun r hr ↦ .ok hr
      next => exact Reads.token
    next => exact .ok h

theorem reads_readTagChars (bound : Nat) (h : c.IsIn text) :
    Reads text (fun r ↦ r.2.IsIn text) (readTagChars bound c) := by
  induction bound generalizing c with
  | zero => exact .ok h
  | succ bound ih =>
    rw [readTagChars]
    split
    next =>
      apply (reads_readBytes _ h).bind
      rintro ⟨bytes, c⟩ hc
      dsimp only
      split
      next => exact Reads.token
      next => exact (ih hc).bind fun r hr ↦ .ok hr
    next =>
      split
      next => exact (ih (h.span _)).bind fun r hr ↦ .ok hr
      next => exact .ok h

theorem reads_readTagText (h : c.IsIn text) :
    Reads text (fun r ↦ r.2.IsIn text) (readTagText c) := by
  rw [readTagText]
  apply (reads_readTagChars _ h).bind
  rintro ⟨cs, c'⟩ hc
  dsimp only
  split
  next => exact Reads.token
  next => exact .ok hc

theorem reads_readHandle (h : c.IsIn text) :
    Reads text (fun r ↦ r.2.IsIn text) (readHandle c) := by
  rw [readHandle]
  split
  next => exact Reads.token
  next =>
    dsimp only
    split
    next => exact .ok h.advance
    next =>
      split
      next => exact .ok (h.advance.span _).advance
      next => exact Reads.token

theorem reads_readTag (h : c.IsIn text) :
    Reads text (fun r ↦ r.2.2.IsIn text) (readTag c) := by
  -- Whatever the tag looks like, a space or the end of the text has to follow.
  have hend {handle : Option String} {suffix : String} {c : Cursor} (h : c.IsIn text) :
      Reads text (fun r : Option String × String × Cursor ↦ r.2.2.IsIn text)
        (if !isSpaceOrEnd c.peek then .error .token else .ok (handle, suffix, c)) := by
    split
    next => exact Reads.token
    next => exact .ok h
  rw [readTag]
  split
  next =>
    apply (reads_readTagText (h.advanceBy 2)).bind
    rintro ⟨suffix, c⟩ hc
    dsimp only
    split
    next => exact Reads.token
    next => exact hend hc.advance
  next =>
    split
    next => exact hend h.advance
    next =>
      split
      next =>
        apply (reads_readHandle h).bind
        rintro ⟨handle, c⟩ hc
        apply (reads_readTagText hc).bind
        rintro ⟨suffix, c⟩ hc
        exact hend hc
      next =>
        apply (reads_readTagText h.advance).bind
        rintro ⟨suffix, c⟩ hc
        exact hend hc

/-- A cursor stands where a number of a version may: after the name of the directive. -/
def AtVersion (text : List Char) (c : Cursor) : Prop :=
  ∃ before gap, text = before ++ ['%', 'Y', 'A', 'M', 'L'] ++ gap ++ c.rest ∧
    gap.all isVersionChar = true

theorem AtVersion.isIn (h : AtVersion text c) : c.IsIn text := by
  obtain ⟨before, gap, htext, -⟩ := h
  exact ⟨_, htext.symm⟩

/-- Characters that belong to a version may be passed over. -/
theorem AtVersion.after (h : AtVersion text c) {passed : List Char} {c' : Cursor}
    (hrest : passed ++ c'.rest = c.rest) (hpassed : passed.all isVersionChar = true) :
    AtVersion text c' := by
  obtain ⟨before, gap, htext, hgap⟩ := h
  refine ⟨before, gap ++ passed, ?_, ?_⟩
  · rw [htext, ← hrest]
    simp only [List.append_assoc]
  · rw [List.all_append, hgap, hpassed]
    rfl

theorem AtVersion.skip_spaces (h : AtVersion text c) : AtVersion text (c.skip (· == ' ')) := by
  apply h.after (c.append_rest_span _)
  apply List.all_eq_true.mpr
  intro x hx
  have hspace := List.all_eq_true.mp (List.all_takeWhile (p := (· == ' '))) x hx
  simp only [isVersionChar, hspace, Bool.true_or]

theorem reads_readVersionNumber (h : AtVersion text c) :
    Reads text (fun r ↦ AtVersion text r.2) (readVersionNumber c) := by
  have hdigits : (c.span Char.isDigit).1.all Char.isDigit = true := List.all_takeWhile
  have hrest := c.append_rest_span Char.isDigit
  rw [readVersionNumber]
  dsimp only
  split
  next => exact Reads.token
  next =>
    split
    next hlimit =>
      obtain ⟨before, gap, htext, hgap⟩ := h
      rw [← hrest, ← List.append_assoc] at htext
      exact .error (.version htext hgap hdigits hlimit)
    next =>
      apply Reads.ok
      apply h.after hrest
      apply List.all_eq_true.mpr
      intro x hx
      rw [isVersionChar, List.all_eq_true.mp hdigits x hx, Bool.or_true]
      rfl

theorem reads_readVersion (h : AtVersion text c) :
    Reads text (fun r ↦ r.2.IsIn text) (readVersion c) := by
  rw [readVersion]
  apply (reads_readVersionNumber h.skip_spaces).bind
  rintro ⟨major, c⟩ hc
  dsimp only
  split
  next => exact Reads.token
  next hpoint =>
    have hpoint : c.peek = '.' := by simpa using hpoint
    have hrest := Cursor.rest_eq_cons_of_peek hpoint (by decide)
    have hafter : AtVersion text c.advance := @AtVersion.after _ _ hc ['.'] _ hrest.symm rfl
    apply (reads_readVersionNumber hafter).bind
    rintro ⟨minor, c⟩ hc
    dsimp only
    split
    next => exact Reads.token
    next => exact .ok hc.isIn

theorem reads_readHandleMeaning (h : c.IsIn text) :
    Reads text (fun r ↦ r.2.IsIn text) (readHandleMeaning c) := by
  rw [readHandleMeaning]
  apply (reads_readHandle (h.skip _)).bind
  rintro ⟨name, c⟩ hc
  dsimp only
  split
  next => exact Reads.token
  next =>
    apply (reads_readTagText (hc.skip _)).bind
    rintro ⟨meaning, c⟩ hc
    dsimp only
    split
    next => exact Reads.token
    next => exact .ok hc

theorem reads_readDirective (h : c.IsIn text) (hmark : c.peek = '%') :
    Reads text (fun r ↦ r.2.2.IsIn text) (readDirective c) := by
  have hend {directive : Directive} {c : Cursor} (h : c.IsIn text) :
      Reads text (fun r : Directive × Place × Cursor ↦ r.2.2.IsIn text)
        (do return (directive, c.place, ← c.restOfLine)) :=
    (Cursor.reads_restOfLine h).bind fun c hc ↦ .ok hc
  have hname := h.advance.span isWordChar
  have hrest := c.advance.append_rest_span isWordChar
  rw [readDirective]
  dsimp only
  split
  next => exact Reads.token
  next =>
    split
    next hversion =>
      have hat : AtVersion text (c.advance.span isWordChar).2 := by
        obtain ⟨before, htext⟩ := h
        refine ⟨before, [], ?_, rfl⟩
        rw [← htext, Cursor.rest_eq_cons_of_peek hmark (by decide), ← hrest, hversion]
        simp
      apply (reads_readVersion hat).bind
      rintro ⟨directive, c⟩ hc
      exact hend hc
    next =>
      split
      next =>
        apply (reads_readHandleMeaning hname).bind
        rintro ⟨directive, c⟩ hc
        exact hend hc
      next =>
        rw [pure_bind]
        exact hend (hname.skip (!isBreakOrEnd ·))

end Property

/-! ## Scalars -/

namespace Scalar

/-- The value of a hexadecimal digit as it is added to those before it. -/
def hexDigitValue (x : Char) : Nat :=
  if x.isDigit then x.toNat - 48 else x.toLower.toNat - 87

theorem hexDigitValue_lt {x : Char} (h : isHexDigit x = true) : hexDigitValue x < 16 := by
  have hdigit : x.toNat < 128 := by
    simp only [isHexDigit, Char.isDigit, Bool.or_eq_true, Bool.and_eq_true, decide_eq_true_eq,
      ge_iff_le, Char.le_def, UInt32.le_iff_toNat_le] at h
    simp only [Char.toNat]
    obtain (⟨-, h⟩ | ⟨-, h⟩) | ⟨-, h⟩ := h
    all_goals exact Nat.lt_of_le_of_lt h (by decide)
  have hall : ∀ n : Fin 128, isHexDigit (Char.ofNat n) = true →
      hexDigitValue (Char.ofNat n) < 16 := by
    decide +kernel
  have hx := hall ⟨x.toNat, hdigit⟩
  rw [Char.ofNat_toNat] at hx
  exact hx h

/-- Digits make a value that is as long as they are. -/
theorem hexValue_lt {digits : List Char} (h : digits.all isHexDigit = true) :
    hexValue digits < 16 ^ digits.length := by
  have hfold (n : Nat) :
      digits.foldl (fun n x ↦ 16 * n + hexDigitValue x) n < (n + 1) * 16 ^ digits.length := by
    induction digits generalizing n with
    | nil => simp
    | cons x digits ih =>
      rw [List.all_cons, Bool.and_eq_true] at h
      have hx := hexDigitValue_lt h.1
      have hrest := ih h.2 (16 * n + hexDigitValue x)
      rw [List.foldl_cons, List.length_cons, Nat.pow_succ']
      calc _ < (16 * n + hexDigitValue x + 1) * 16 ^ digits.length := hrest
        _ ≤ (16 * (n + 1)) * 16 ^ digits.length := Nat.mul_le_mul_right _ (by omega)
        _ = (n + 1) * (16 * 16 ^ digits.length) := by ac_rfl
  have := hfold 0
  rwa [Nat.zero_add, Nat.one_mul] at this

/-- Only the letter of an escape by eight digits lets a code be no character's. -/
theorem eq_of_codeLength? {x : Char} {length : Nat} (h : codeLength? x = some length) :
    x ≠ '\x00' ∧ (length ≤ 4 ∨ x = 'U' ∧ length = 8) := by
  unfold codeLength? at h
  split at h
  next => cases h; decide
  next => cases h; decide
  next => cases h; decide
  next => cases h

theorem reads_readFlowBreaks (bound : Nat) (h : c.IsIn text) :
    Reads text (fun r ↦ r.2.IsIn text) (readFlowBreaks bound c) := by
  induction bound generalizing c with
  | zero => exact .ok h
  | succ bound ih =>
    rw [readFlowBreaks]
    split
    next => exact Reads.token
    next =>
      dsimp only
      split
      next => exact (ih (h.skip _).takeBreak).bind fun r hr ↦ .ok hr
      next => exact .ok (h.skip _)

theorem reads_readFlowSpaces (bound : Nat) (h : c.IsIn text) :
    Reads text (fun r ↦ r.2.IsIn text) (readFlowSpaces bound c) := by
  rw [readFlowSpaces]
  dsimp only
  split
  next => exact (reads_readFlowBreaks bound (h.span _).takeBreak).bind fun r hr ↦ .ok hr
  next => exact .ok (h.span _)

/-- An escape asks for no character only by a code that is written there. -/
theorem reads_readEscape (bound : Nat) {before : List Char}
    (h : text = before ++ '\\' :: c.rest) :
    Reads text (fun r ↦ r.2.IsIn text) (readEscape bound c) := by
  have hc : c.IsIn text := ⟨before ++ ['\\'], by rw [h]; simp⟩
  rw [readEscape]
  split
  next => exact .ok hc.advance
  next length _ hlength =>
    obtain ⟨hend, hlength⟩ := eq_of_codeLength? hlength
    rw [readCode]
    split
    next hdigits =>
      change Reads text _ (decodeCode _ >>= _)
      rw [decodeCode]
      split
      next hcode =>
        have hvalue := hexValue_lt hdigits.2
        rw [hdigits.1] at hvalue
        obtain hshort | ⟨hletter, rfl⟩ := hlength
        -- A code of at most four digits is that of a character.
        · have hfew : 16 ^ length ≤ 16 ^ 4 := Nat.pow_le_pow_right (by decide) hshort
          omega
        · have htext : text = before ++ ['\\', 'U'] ++ c.advance.rest.take 8 ++
              c.advance.rest.drop 8 := by
            rw [h, Cursor.rest_eq_cons_of_peek hletter (by decide)]
            simp
          exact .error (.escape htext hdigits.1 hdigits.2 hcode)
      next => exact .ok (hc.advance.advanceBy _)
    next => exact Reads.token
  next =>
    split
    next => exact (reads_readFlowBreaks bound hc.takeBreak).bind fun r hr ↦ .ok hr
    next => exact Reads.token

theorem reads_readQuotedText (double : Bool) (bound : Nat) (h : c.IsIn text) :
    Reads text (fun r ↦ r.2.IsIn text) (readQuotedText double bound c) := by
  induction bound generalizing c with
  | zero => exact Reads.token
  | succ bound ih =>
    have hmore {part : Text} {c : Cursor} (h : c.IsIn text) :
        Reads text (fun r : Text × Cursor ↦ r.2.IsIn text)
          (readQuotedText double bound c >>= fun r ↦ return (part ++ r.1, r.2)) :=
      (ih h).bind fun r hr ↦ .ok hr
    rw [readQuotedText]
    dsimp only
    generalize (if double = true then '"' else '\'') = quote
    split
    next => exact Reads.token
    next =>
      split
      next => exact (ih (h.advanceBy 2)).bind fun r hr ↦ .ok hr
      next =>
        split
        next => exact .ok h.advance
        next =>
          split
          next =>
            apply (reads_readFlowSpaces bound h).bind
            rintro ⟨gap, c⟩ hc
            exact hmore hc
          next =>
            split
            next hescape =>
              have hmark : c.peek = '\\' := by
                rw [Bool.and_eq_true] at hescape
                exact eq_of_beq hescape.2
              obtain ⟨before, htext⟩ := h
              rw [Cursor.rest_eq_cons_of_peek hmark (by decide)] at htext
              apply (reads_readEscape bound htext.symm).bind
              rintro ⟨part, c⟩ hc
              exact hmore hc
            next => exact hmore h.advance

theorem reads_readQuoted (h : c.IsIn text) :
    Reads text (fun r ↦ r.2.IsIn text) (readQuoted c) :=
  reads_readQuotedText _ _ h.advance

theorem isIn_readPlainBreaks (bound : Nat) (h : c.IsIn text) :
    (readPlainBreaks bound c).2.IsIn text := by
  induction bound generalizing c with
  | zero => exact h
  | succ bound ih =>
    rw [readPlainBreaks]
    split
    next => exact ih h.advance
    next =>
      split
      next =>
        dsimp only
        split
        next => exact h.takeBreak
        next => exact ih h.takeBreak
      next => exact h

theorem isIn_readPlainGap (h : c.IsIn text) : (readPlainGap c).cursor.IsIn text := by
  have hspaces := h.span (· == ' ')
  rw [readPlainGap]
  dsimp only
  split
  next =>
    split
    next => exact hspaces.takeBreak
    next => exact isIn_readPlainBreaks _ hspaces.takeBreak
  next => exact hspaces

theorem isIn_readPlainParts (inFlow : Bool) (outer : Int) (bound : Nat) {gap : PlainGap}
    {read : Plain} (hgap : gap.cursor.IsIn text) (hread : read.cursor.IsIn text) :
    (readPlainParts inFlow outer bound gap read).cursor.IsIn text := by
  induction bound generalizing gap read with
  | zero => exact hread
  | succ bound ih =>
    have hnext (n : Nat) := isIn_readPlainGap (hgap.advanceBy n)
    rw [readPlainParts]
    dsimp only
    generalize (if (gap.cursor.peek == '#') = true then [] else _) = run
    split
    next => exact hgap
    next =>
      split
      next => exact hnext _
      next => exact ih (hnext _) (hnext _)

theorem isIn_readPlain (inFlow : Bool) (outer : Int) (h : c.IsIn text) :
    (readPlain inFlow outer c).cursor.IsIn text :=
  isIn_readPlainParts inFlow outer _ h h

theorem isIn_readChomping (h : c.IsIn text) : (readChomping c).2.IsIn text := by
  rw [readChomping]
  split
  next => exact h.advance
  next => exact h.advance
  next => exact h

theorem reads_readIndentation (h : c.IsIn text) :
    Reads text (fun r ↦ r.2.IsIn text) (readIndentation c) := by
  rw [readIndentation]
  split
  next => exact Reads.token
  next =>
    split
    next => exact .ok h.advance
    next => exact .ok h

theorem reads_readBlockHead (h : c.IsIn text) :
    Reads text (fun r ↦ r.2.2.IsIn text) (readBlockHead c) := by
  have hbefore := isIn_readChomping h
  rw [readBlockHead]
  generalize readChomping c = before at hbefore
  apply (reads_readIndentation hbefore).bind
  rintro ⟨digit, c⟩ hc
  have hafter : (if before.1.isNone && digit.isSome then readChomping c
      else (none, c)).2.IsIn text := by
    split
    next => exact isIn_readChomping hc
    next => exact hc
  dsimp only
  generalize (if (before.1.isNone && digit.isSome) = true then readChomping c
    else (none, c)) = after at hafter
  split
  next => exact Reads.token
  next => exact (Cursor.reads_restOfLine hafter).bind fun r hr ↦ .ok hr

theorem isIn_readBlockStart (widest bound : Nat) (h : c.IsIn text) :
    (readBlockStart widest bound c).2.2.IsIn text := by
  induction bound generalizing widest c with
  | zero => exact h
  | succ bound ih =>
    rw [readBlockStart]
    split
    next => exact ih _ h.advance
    next =>
      split
      next => exact ih _ h.takeBreak
      next => exact h

theorem isIn_readBlockBreaks (indent bound : Nat) (h : c.IsIn text) :
    (readBlockBreaks indent bound c).2.IsIn text := by
  induction bound generalizing c with
  | zero => exact h.advanceBy _
  | succ bound ih =>
    have hskip : (skipTo indent c).IsIn text := h.advanceBy _
    rw [readBlockBreaks]
    dsimp only
    split
    next => exact ih hskip.takeBreak
    next => exact hskip

theorem isIn_readBlockLines (folded : Bool) (indent bound : Nat) (h : c.IsIn text) :
    (readBlockLines folded indent bound c).2.2.2.IsIn text := by
  induction bound generalizing c with
  | zero => exact h
  | succ bound ih =>
    have hblanks (n : Nat) :=
      isIn_readBlockBreaks indent n (h.span (!isBreakOrEnd ·)).takeBreak
    rw [readBlockLines]
    dsimp only
    split
    next => exact ih (hblanks _)
    next => exact hblanks _

theorem reads_readBlock (outer : Int) (h : c.IsIn text) :
    Reads text (fun r ↦ r.2.IsIn text) (readBlock outer c) := by
  rw [readBlock]
  generalize (c.peek == '>') = folded
  apply (reads_readBlockHead h.advance).bind
  rintro ⟨chomping, digit, c⟩ (hc : c.IsIn text)
  dsimp only
  -- With the bound as it is, comparing two readings would unfold them.
  generalize c.rest.length + 1 = bound
  cases digit with
  | none =>
    have hstart := isIn_readBlockStart 0 bound hc
    dsimp only
    split
    next => exact .ok (isIn_readBlockLines _ _ _ hstart)
    next => exact .ok hstart
  | some n =>
    have hstart := isIn_readBlockBreaks ((max (outer + 1) 1).toNat + n - 1) bound hc
    dsimp only
    split
    next => exact .ok (isIn_readBlockLines _ _ _ hstart)
    next => exact .ok hstart

end Scalar

end

end EntityGraph.Yaml
