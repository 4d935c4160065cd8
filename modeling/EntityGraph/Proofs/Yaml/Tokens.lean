import EntityGraph.Proofs.Yaml.Scanning

/-!
# Failures of tokens

Why the tokens of a text fail. A lexer reads every token in the text and moves on from there, and
between two tokens it only gives up places where a key may have started. So its cursor stays in the
text, and whatever ends the tokens is the failure of a reading in the text.
-/

namespace EntityGraph.Yaml

namespace Lexer

variable {text : List Char} {s : Lexer}

/-- A lexer is in a text if its cursor is. -/
def IsIn (text : List Char) (s : Lexer) : Prop := s.cursor.IsIn text

theorem cursor_endBlocks (s : Lexer) (column : Int) : (s.endBlocks column).cursor = s.cursor := by
  rw [endBlocks]
  split
  next => rfl
  next => rfl

theorem cursor_openBlock (s : Lexer) (lexeme : Lexeme) :
    (s.openBlock lexeme).cursor = s.cursor := by
  rw [openBlock, startBlock]
  split
  next hstart =>
    split at hstart
    next => cases hstart; rfl
    next => cases hstart
  next hstart =>
    split at hstart
    next => cases hstart
    next => cases hstart; rfl

/-! ## Possible starts of keys -/

theorem reads_dropStale (text : List Char) (s : Lexer) :
    Reads text (fun s' ↦ s'.cursor = s.cursor) s.dropStale := by
  rw [dropStale]
  split
  split
  next => exact Reads.token
  next => exact .ok rfl

theorem reads_dropKeyStart (text : List Char) (s : Lexer) :
    Reads text (fun s' ↦ s'.cursor = s.cursor) s.dropKeyStart := by
  rw [dropKeyStart]
  split
  split
  next => exact Reads.token
  next => exact .ok rfl

theorem reads_markKeyStart (text : List Char) (s : Lexer) :
    Reads text (fun s' ↦ s'.cursor = s.cursor) s.markKeyStart := by
  rw [markKeyStart]
  split
  next => exact (reads_dropKeyStart text s).bind fun s hs ↦ .ok hs
  next => exact .ok rfl

/-! ## Single tokens -/

theorem IsIn.endBlocks (h : IsIn text s) (column : Int) : IsIn text (s.endBlocks column) := by
  rw [IsIn, cursor_endBlocks]
  exact h

theorem IsIn.openBlock (h : IsIn text s) (lexeme : Lexeme) : IsIn text (s.openBlock lexeme) := by
  rw [IsIn, cursor_openBlock]
  exact h

theorem IsIn.skipGaps (h : IsIn text s) (bound : Nat) : IsIn text (skipGaps bound s) := by
  induction bound generalizing s with
  | zero => exact h
  | succ bound ih =>
    have hspaces := Cursor.IsIn.skip h (· == ' ')
    rw [Lexer.skipGaps]
    generalize hgap : (if ((s.cursor.skip (· == ' ')).peek == '#') = true then
      (s.cursor.skip (· == ' ')).skip (!isBreakOrEnd ·) else s.cursor.skip (· == ' ')) = c
    have hc : c.IsIn text := by
      rw [← hgap]
      split
      next => exact hspaces.skip _
      next => exact hspaces
    split
    next => exact ih hc.takeBreak
    next => exact hc

/-- A step that gives up a possible key and then passes over some characters. -/
theorem reads_dropKeyStart_bind (h : IsIn text s) {k : Lexer → Lexer}
    (hk : ∀ s', ∃ n, (k s').cursor = s'.cursor.advanceBy n) :
    Reads text (IsIn text) (s.dropKeyStart >>= fun s ↦ .ok (k s)) := by
  apply (reads_dropKeyStart text s).bind
  intro s' hs'
  obtain ⟨n, hn⟩ := hk s'
  apply Reads.ok
  rw [IsIn, hn, hs']
  exact Cursor.IsIn.advanceBy h n

theorem reads_readEnd (h : IsIn text s) : Reads text (IsIn text) s.readEnd :=
  reads_dropKeyStart_bind (h.endBlocks _) fun _ ↦ ⟨0, rfl⟩

theorem reads_readDirective (h : IsIn text s) (hmark : s.cursor.peek = '%') :
    Reads text (IsIn text) s.readDirective := by
  rw [readDirective]
  apply (reads_dropKeyStart text _).bind
  intro s' hs'
  rw [cursor_endBlocks] at hs'
  rw [IsIn, ← hs'] at h
  rw [← hs'] at hmark
  exact (Property.reads_readDirective h hmark).bind fun r hr ↦ .ok hr

theorem reads_readDocumentMark (h : IsIn text s) (lexeme : Lexeme) :
    Reads text (IsIn text) (s.readDocumentMark lexeme) :=
  reads_dropKeyStart_bind (h.endBlocks _) fun _ ↦ ⟨3, rfl⟩

theorem reads_readFlowStart (h : IsIn text s) (lexeme : Lexeme) :
    Reads text (IsIn text) (s.readFlowStart lexeme) := by
  apply (reads_markKeyStart text s).bind
  intro s' hs'
  rw [IsIn, ← hs'] at h
  exact .ok (h.advanceBy 1)

theorem reads_readFlowEnd (h : IsIn text s) (lexeme : Lexeme) :
    Reads text (IsIn text) (s.readFlowEnd lexeme) :=
  reads_dropKeyStart_bind h fun _ ↦ ⟨1, rfl⟩

theorem reads_readSeparator (h : IsIn text s) : Reads text (IsIn text) s.readSeparator :=
  reads_dropKeyStart_bind h fun _ ↦ ⟨1, rfl⟩

theorem reads_readItem (h : IsIn text s) : Reads text (IsIn text) s.readItem := by
  rw [readItem]
  split
  next => exact Reads.token
  next =>
    split
    next => exact reads_dropKeyStart_bind h fun _ ↦ ⟨1, rfl⟩
    next => exact reads_dropKeyStart_bind (h.openBlock _) fun _ ↦ ⟨1, rfl⟩

theorem reads_readKey (h : IsIn text s) : Reads text (IsIn text) s.readKey := by
  rw [readKey]
  split
  next => exact Reads.token
  next =>
    split
    next => exact reads_dropKeyStart_bind h fun _ ↦ ⟨1, rfl⟩
    next => exact reads_dropKeyStart_bind (h.openBlock _) fun _ ↦ ⟨1, rfl⟩

theorem reads_readValue (h : IsIn text s) : Reads text (IsIn text) s.readValue := by
  rw [readValue]
  split
  next start _ =>
    have hvalue := Cursor.IsIn.advanceBy h 1
    dsimp only
    rw [startBlock]
    split
    next => exact .ok hvalue
    next =>
      split
      next => exact .ok hvalue
      next => exact .ok hvalue
  next =>
    dsimp only
    split
    next => exact Reads.token
    next =>
      split
      next => exact reads_dropKeyStart_bind h fun _ ↦ ⟨1, rfl⟩
      next => exact reads_dropKeyStart_bind (h.openBlock _) fun _ ↦ ⟨1, rfl⟩

theorem reads_readName (h : IsIn text s) (lexeme : String → Lexeme) :
    Reads text (IsIn text) (s.readName lexeme) := by
  apply (reads_markKeyStart text s).bind
  intro s' hs'
  rw [IsIn, ← hs'] at h
  exact (Property.reads_readName h).bind fun r hr ↦ .ok hr

theorem reads_readTag (h : IsIn text s) : Reads text (IsIn text) s.readTag := by
  apply (reads_markKeyStart text s).bind
  intro s' hs'
  rw [IsIn, ← hs'] at h
  exact (Property.reads_readTag h).bind fun r hr ↦ .ok hr

theorem reads_readBlockScalar (h : IsIn text s) : Reads text (IsIn text) s.readBlockScalar := by
  apply (reads_dropKeyStart text s).bind
  intro s' hs'
  rw [IsIn, ← hs'] at h
  exact (Scalar.reads_readBlock _ h).bind fun r hr ↦ .ok hr

theorem reads_readQuoted (h : IsIn text s) : Reads text (IsIn text) s.readQuoted := by
  apply (reads_markKeyStart text s).bind
  intro s' hs'
  rw [IsIn, ← hs'] at h
  exact (Scalar.reads_readQuoted h).bind fun r hr ↦ .ok hr

theorem reads_readPlain (h : IsIn text s) : Reads text (IsIn text) s.readPlain := by
  apply (reads_markKeyStart text s).bind
  intro s' hs'
  rw [IsIn, ← hs'] at h
  exact .ok (Scalar.isIn_readPlain _ _ h)

/-- Every token is read in the text. -/
theorem reads_readToken (h : IsIn text s) : Reads text (IsIn text) s.readToken := by
  rw [readToken]
  apply Reads.ite fun _ ↦ reads_readEnd h
  apply Reads.ite
  · intro hmark
    rw [Bool.and_eq_true] at hmark
    exact reads_readDirective h (eq_of_beq hmark.1)
  apply Reads.ite fun _ ↦ reads_readDocumentMark h _
  apply Reads.ite fun _ ↦ reads_readDocumentMark h _
  apply Reads.ite fun _ ↦ reads_readFlowStart h _
  apply Reads.ite fun _ ↦ reads_readFlowStart h _
  apply Reads.ite fun _ ↦ reads_readFlowEnd h _
  apply Reads.ite fun _ ↦ reads_readFlowEnd h _
  apply Reads.ite fun _ ↦ reads_readSeparator h
  apply Reads.ite fun _ ↦ reads_readItem h
  apply Reads.ite fun _ ↦ reads_readKey h
  apply Reads.ite fun _ ↦ reads_readValue h
  apply Reads.ite fun _ ↦ reads_readName h _
  apply Reads.ite fun _ ↦ reads_readName h _
  apply Reads.ite fun _ ↦ reads_readTag h
  apply Reads.ite fun _ ↦ reads_readBlockScalar h
  apply Reads.ite fun _ ↦ reads_readQuoted h
  apply Reads.ite fun _ ↦ reads_readPlain h
  exact Reads.token

theorem reads_readNext (h : IsIn text s) : Reads text (IsIn text) s.readNext := by
  have hgaps {s : Lexer} (h : IsIn text s) : Reads text (IsIn text)
      (do
        let s ← (skipGaps (s.cursor.rest.length + 1) s).dropStale
        (s.endBlocks s.cursor.column).readToken) := by
    apply (reads_dropStale text _).bind
    intro s' hs'
    apply reads_readToken
    rw [IsIn, cursor_endBlocks, hs']
    exact h.skipGaps _
  rw [readNext]
  split
  next => exact hgaps (Cursor.IsIn.advance h)
  next => exact hgaps h

/-! ## All tokens -/

theorem reads_release (held : List Token) (h : IsIn text s) :
    Reads text (IsIn text) (s.release held).2 := by
  induction held generalizing s with
  | nil => exact .ok h
  | cons t rest ih =>
    rw [release]
    split
    next => exact ih h
    next =>
      have hstale := reads_dropStale text s
      split
      next f hdrop =>
        rw [hdrop] at hstale
        cases hstale with
        | error hf => exact .error hf
      next s' hdrop =>
        rw [hdrop] at hstale
        cases hstale with
        | ok hs' =>
          rw [IsIn, ← hs'] at h
          split
          next => exact .ok h
          next => exact ih h

section

-- Comparing two runs would else unfold what they read.
attribute [local irreducible] readNext release

theorem run_succ (bound : Nat) (s : Lexer) :
    s.run (bound + 1) =
      match s.readNext with
      | .error e => ([], some e)
      | .ok s =>
        match s.release s.held with
        | (out, .error e) => (out, some e)
        | (out, .ok s) =>
          if s.ended then (out, none)
          else
            let (more, failure) := s.run bound
            (out ++ more, failure) :=
  rfl

end

/-- Reading on to the end keeps the lexer in the text, so that whatever ends the tokens is due to
the text. -/
theorem unscannable_of_run {bound : Nat} {f : Failure} (h : IsIn text s)
    (hrun : (s.run bound).2 = some f) : Unscannable text f := by
  induction bound generalizing s with
  | zero =>
    cases (hrun : some Failure.token = some f)
    exact .token
  | succ bound ih =>
    have hnext := reads_readNext h
    rw [run_succ] at hrun
    generalize s.readNext = next at hrun hnext
    cases hnext with
    | error hf =>
      cases hrun
      exact hf
    | @ok s' hs' =>
      have hreleased := reads_release s'.held hs'
      dsimp only at hrun
      generalize s'.release s'.held = released at hrun hreleased
      obtain ⟨out, rest⟩ := released
      dsimp only at hreleased
      cases hreleased with
      | error hf =>
        cases hrun
        exact hf
      | ok hs =>
        dsimp only at hrun
        split at hrun
        next => cases hrun
        next => exact ih hs hrun

end Lexer

/-- The tokens of a text fail only as the text makes them. -/
theorem unscannable_of_tokens {text : List Char} {f : Failure} (h : (tokens text).2 = some f) :
    Unscannable text f := by
  rw [tokens] at h
  split at h
  next =>
    have hstart : Lexer.IsIn text { cursor := ⟨text, {}⟩ } := List.suffix_rfl
    exact Lexer.unscannable_of_run hstart h
  next hall =>
    cases h
    exact .character (Bool.eq_false_iff.mpr hall)

end EntityGraph.Yaml
