import EntityGraph.Proofs.Yaml.Tokens
import EntityGraph.Yaml.Grammar

/-!
# Failures of the grammar

Why the tokens of a text are no document. A reader of tokens fails of its own accord only with a
flaw, and where it asks for a token that is not there, with the failure that ended the tokens. So a
text that gives no tree either is flawed or has tokens that end in a failure, and then in that one.
-/

namespace EntityGraph.Yaml

namespace Grammar

/-- A reader that fails only with a flaw or with the failure that ended the tokens. -/
def Composes {α : Type} (x : Reader α) : Prop :=
  ∀ context s f, (x.run context).run s = .error f → f = context.ending ∨ f.isFlaw = true

namespace Composes

variable {α β : Type}

theorem pure (a : α) : Composes (Pure.pure a) := by
  intro context s f h
  cases h

theorem fail {f : Failure} (hf : f.isFlaw = true) : Composes (fail f : Reader α) := by
  intro context s f' h
  cases h
  exact .inr hf

theorem bind {x : Reader α} {k : α → Reader β} (hx : Composes x) (hk : ∀ a, Composes (k a)) :
    Composes (x >>= k) := by
  intro context s f h
  change ((x.run context).run s >>= fun r ↦ ((k r.1).run context).run r.2) = .error f at h
  cases hrun : (x.run context).run s with
  | error e =>
    rw [hrun] at h
    cases h
    exact hx context s f hrun
  | ok r =>
    rw [hrun] at h
    exact hk r.1 context r.2 f h

theorem get : Composes (MonadState.get : Reader State) := by
  intro context s f h
  cases h

theorem modify (g : State → State) : Composes (modify g : Reader Unit) := by
  intro context s f h
  cases h

theorem read : Composes (MonadReader.read : Reader Context) := by
  intro context s f h
  cases h

/-- Where no token is left, the failure that ended them is met. -/
theorem peek : Composes peek := by
  rintro context ⟨tokens, anchors⟩ f h
  cases tokens with
  | cons t rest => cases h
  | nil =>
    cases h
    exact .inl rfl

theorem advance : Composes advance := modify _

theorem atAny (lexemes : List Lexeme) : Composes (atAny lexemes) := peek.bind fun _ ↦ pure _

theorem fullTag (handle : Option String) (suffix : String) : Composes (fullTag handle suffix) := by
  cases handle with
  | none => exact pure _
  | some h =>
    apply read.bind
    intro context
    split
    next => exact pure _
    next => exact fail rfl

theorem properties : Composes properties := by
  rw [Grammar.properties]
  apply peek.bind
  intro first
  split
  next name _ =>
    apply advance.bind
    intro _
    apply peek.bind
    intro second
    split
    next =>
      apply advance.bind
      intro _
      exact (fullTag _ _).bind fun _ ↦ pure _
    next => exact pure _
  next =>
    apply advance.bind
    intro _
    apply peek.bind
    intro second
    split
    next =>
      apply advance.bind
      intro _
      exact (fullTag _ _).bind fun _ ↦ pure _
    next => exact (fullTag _ _).bind fun _ ↦ pure _
  next => exact pure _

theorem declare (anchor : Option String) : Composes (declare anchor) := by
  cases anchor with
  | none => exact pure _
  | some name =>
    apply get.bind
    intro s
    dsimp only
    split
    next => exact (fail rfl).bind fun _ ↦ modify _
    next => exact modify _

theorem name (anchor : Option String) (n : Node) : Composes (name anchor n) := by
  cases anchor with
  | none => exact pure _
  | some a => exact (modify _).bind fun _ ↦ pure _

theorem resolve (anchor : String) : Composes (resolve anchor) := by
  rw [Grammar.resolve]
  apply get.bind
  intro s
  split
  next => exact pure _
  next => exact fail rfl

/-! ## Nodes -/

/-- What is read up to a bound composes: one fact for every part of a collection. -/
structure UpTo (bound : Nat) : Prop where
  node (inBlock flatSequence : Bool) : Composes (node bound inBlock flatSequence)
  nodeUnless (ends : List Lexeme) (place : Place) (inBlock flatSequence : Bool) :
    Composes (nodeUnless bound ends place inBlock flatSequence)
  blockItems : Composes (blockItems bound)
  flatItems : Composes (flatItems bound)
  entryValue (ends : List Lexeme) (inBlock : Bool) : Composes (entryValue bound ends inBlock)
  blockEntries : Composes (blockEntries bound)
  flowItems (isFirst : Bool) : Composes (flowItems bound isFirst)
  flowEntries (isFirst : Bool) : Composes (flowEntries bound isFirst)

theorem upTo_zero : UpTo 0 where
  node _ _ := fail rfl
  nodeUnless _ _ _ _ := fail rfl
  blockItems := fail rfl
  flatItems := fail rfl
  entryValue _ _ := fail rfl
  blockEntries := fail rfl
  flowItems _ := fail rfl
  flowEntries _ := fail rfl

section

variable {bound : Nat} (h : UpTo bound)

include h

theorem node_succ (inBlock flatSequence : Bool) :
    Composes (node (bound + 1) inBlock flatSequence) := by
  unfold Grammar.node
  apply peek.bind
  intro first
  split
  next anchor _ => exact advance.bind fun _ ↦ resolve anchor
  next =>
    apply properties.bind
    intro props
    apply peek.bind
    intro t
    dsimp only
    split
    next =>
      apply (declare _).bind
      intro _
      exact h.flatItems.bind fun _ ↦ name _ _
    next =>
      apply advance.bind
      intro _
      exact (declare _).bind fun _ ↦ name _ _
    next =>
      apply (declare _).bind
      intro _
      apply advance.bind
      intro _
      exact (h.flowItems true).bind fun _ ↦ name _ _
    next =>
      apply (declare _).bind
      intro _
      apply advance.bind
      intro _
      exact (h.flowEntries true).bind fun _ ↦ name _ _
    next =>
      apply (declare _).bind
      intro _
      apply advance.bind
      intro _
      exact h.blockItems.bind fun _ ↦ name _ _
    next =>
      apply (declare _).bind
      intro _
      apply advance.bind
      intro _
      exact h.blockEntries.bind fun _ ↦ name _ _
    next =>
      have hempty : Composes (Grammar.declare props.anchor >>= fun _ ↦ Grammar.name props.anchor
          (.scalar (scalarTag props.tag [] true) [] (props.start.getD t.start))) :=
        (declare _).bind fun _ ↦ name _ _
      split
      next => exact (fail rfl).bind fun _ ↦ hempty
      next => exact hempty

theorem nodeUnless_succ (ends : List Lexeme) (place : Place) (inBlock flatSequence : Bool) :
    Composes (nodeUnless (bound + 1) ends place inBlock flatSequence) := by
  unfold Grammar.nodeUnless
  apply (atAny ends).bind
  intro isEnd
  split
  next => exact pure _
  next => exact h.node _ _

theorem blockItems_succ : Composes (blockItems (bound + 1)) := by
  unfold Grammar.blockItems
  apply peek.bind
  intro t
  split
  next =>
    apply advance.bind
    intro _
    apply (h.nodeUnless _ _ _ _).bind
    intro n
    exact h.blockItems.bind fun _ ↦ pure _
  next => exact advance.bind fun _ ↦ pure _
  next => exact fail rfl

theorem flatItems_succ : Composes (flatItems (bound + 1)) := by
  unfold Grammar.flatItems
  apply peek.bind
  intro t
  split
  next =>
    apply advance.bind
    intro _
    apply (h.nodeUnless _ _ _ _).bind
    intro n
    exact h.flatItems.bind fun _ ↦ pure _
  next => exact pure _

theorem entryValue_succ (ends : List Lexeme) (inBlock : Bool) :
    Composes (entryValue (bound + 1) ends inBlock) := by
  unfold Grammar.entryValue
  apply peek.bind
  intro t
  split
  next => exact advance.bind fun _ ↦ h.nodeUnless _ _ _ _
  next => exact pure _

theorem blockEntries_succ : Composes (blockEntries (bound + 1)) := by
  unfold Grammar.blockEntries
  apply peek.bind
  intro t
  split
  next =>
    apply advance.bind
    intro _
    apply (h.nodeUnless _ _ _ _).bind
    intro k
    apply (h.entryValue _ _).bind
    intro v
    exact h.blockEntries.bind fun _ ↦ pure _
  next => exact advance.bind fun _ ↦ pure _
  next => exact fail rfl

omit h in
/-- The comma between two parts of a flow collection. -/
theorem separator_bind {α : Type} {k : Reader α} (isFirst : Bool) (hk : Composes k) :
    Composes (if !isFirst then do
      if (← Grammar.peek).lexeme == .separator then Grammar.advance else Grammar.fail .grammar
      k
    else k) := by
  split
  next =>
    apply peek.bind
    intro t
    split
    next => exact advance.bind fun _ ↦ hk
    next => exact (fail rfl).bind fun _ ↦ hk
  next => exact hk

theorem flowItems_succ (isFirst : Bool) : Composes (flowItems (bound + 1) isFirst) := by
  unfold Grammar.flowItems
  apply peek.bind
  intro first
  dsimp only
  split
  next => exact advance.bind fun _ ↦ pure _
  next =>
    apply separator_bind
    apply peek.bind
    intro t
    split
    next =>
      apply advance.bind
      intro _
      apply (h.nodeUnless _ _ _ _).bind
      intro k
      apply (h.entryValue _ _).bind
      intro v
      exact (h.flowItems false).bind fun _ ↦ pure _
    next => exact advance.bind fun _ ↦ pure _
    next =>
      apply (h.node _ _).bind
      intro n
      exact (h.flowItems false).bind fun _ ↦ pure _

theorem flowEntries_succ (isFirst : Bool) : Composes (flowEntries (bound + 1) isFirst) := by
  unfold Grammar.flowEntries
  apply peek.bind
  intro first
  dsimp only
  split
  next => exact advance.bind fun _ ↦ pure _
  next =>
    apply separator_bind
    apply peek.bind
    intro t
    split
    next =>
      apply advance.bind
      intro _
      apply (h.nodeUnless _ _ _ _).bind
      intro k
      apply (h.entryValue _ _).bind
      intro v
      exact (h.flowEntries false).bind fun _ ↦ pure _
    next => exact advance.bind fun _ ↦ pure _
    next =>
      apply (h.node _ _).bind
      intro k
      apply peek.bind
      intro t
      exact (h.flowEntries false).bind fun _ ↦ pure _

end

/-- Every part of a document composes, by induction on the bound. -/
theorem upTo (bound : Nat) : UpTo bound := by
  induction bound with
  | zero => exact upTo_zero
  | succ bound h =>
    exact {
      node := node_succ h
      nodeUnless := nodeUnless_succ h
      blockItems := blockItems_succ h
      flatItems := flatItems_succ h
      entryValue := entryValue_succ h
      blockEntries := blockEntries_succ h
      flowItems := flowItems_succ h
      flowEntries := flowEntries_succ h }

theorem root (bound : Nat) (mayBeAbsent : Bool) : Composes (root bound mayBeAbsent) := by
  rw [Grammar.root]
  apply peek.bind
  intro t
  split
  next => exact pure _
  next => exact (upTo bound).node _ _

end Composes

/-! ## Documents -/

/-- A result that is a failure only by a flaw or the failure that ended the tokens. -/
def Settled {α : Type} (ending : Failure) (x : Except Failure α) : Prop :=
  ∀ f, x = .error f → f = ending ∨ f.isFlaw = true

namespace Settled

variable {α β : Type} {ending : Failure}

theorem ok (a : α) : Settled ending (.ok a) := by
  intro f h
  cases h

theorem ended : Settled ending (.error ending : Except Failure α) := by
  intro f h
  cases h
  exact .inl rfl

theorem flaw {f : Failure} (hf : f.isFlaw = true) :
    Settled ending (.error f : Except Failure α) := by
  intro f' h
  cases h
  exact .inr hf

theorem bind {x : Except Failure α} {k : α → Except Failure β} (hx : Settled ending x)
    (hk : ∀ a, Settled ending (k a)) : Settled ending (x >>= k) := by
  cases x with
  | error e =>
    intro f h
    cases h
    exact hx e rfl
  | ok a => exact hk a

end Settled

theorem settled_directives (ending : Failure) (tokens : List Token) (hasVersion : Bool)
    (handles : List (String × String)) :
    Settled ending (directives tokens hasVersion handles) := by
  induction tokens generalizing hasVersion handles with
  | nil => exact .ok _
  | cons t rest ih =>
    rw [directives]
    split
    next =>
      split
      next => exact .flaw rfl
      next => exact ih _ _
    next =>
      split
      next => exact .flaw rfl
      next => exact ih _ _
    next => exact ih _ _
    next => exact .ok _

theorem settled_documentStart (ending : Failure) (tokens : List Token) :
    Settled ending (documentStart ending tokens) := by
  rw [documentStart]
  split
  next => exact .ended
  next t rest _ =>
    dsimp only
    split
    next => exact .ok _
    next =>
      apply (settled_directives ending _ _ _).bind
      rintro ⟨handles, tokens⟩
      cases tokens with
      | nil => exact .ended
      | cons t rest =>
        dsimp only
        split
        next => exact .ok _
        next => exact .flaw rfl

/-- The tokens after the root have to end the text. -/
theorem settled_documentStart_bind (ending : Failure) (tokens : List Token) (n : Node) :
    Settled ending (documentStart ending tokens >>= fun start ↦ match start with
      | none => .ok (some n)
      | some _ => .error .reference) := by
  apply (settled_documentStart ending tokens).bind
  intro start
  cases start with
  | none => exact .ok _
  | some _ => exact .flaw rfl

/-- A document fails by a flaw of its own, or where its tokens end in a failure. -/
theorem settled_document (tokens : List Token) (ending : Failure) :
    Settled ending (document tokens ending) := by
  have hroot (isMarked : Bool) (handles : List (String × String)) (tokens : List Token) :
      Settled ending (((root (4 * tokens.length + 8) isMarked).run ⟨ending, handles⟩).run
        ⟨tokens, []⟩) :=
    Composes.root _ _ ⟨ending, handles⟩ ⟨tokens, []⟩
  cases tokens with
  | nil => exact .ended
  | cons t tail =>
    unfold document
    dsimp only
    rw [pure_bind]
    split
    next =>
      apply (settled_documentStart ending _).bind
      intro start
      cases start with
      | none => exact .ok _
      | some start =>
        apply (hroot _ _ _).bind
        rintro ⟨n, ⟨rest, anchors⟩⟩
        cases rest with
        | nil => exact .ended
        | cons t rest => exact settled_documentStart_bind _ _ n
    next =>
      rw [pure_bind]
      apply (hroot _ _ _).bind
      rintro ⟨n, ⟨rest, anchors⟩⟩
      cases rest with
      | nil => exact .ended
      | cons t rest => exact settled_documentStart_bind _ _ n

end Grammar

/-- A text gives no tree by a flaw, or where its tokens cannot be scanned. -/
theorem Node.unscannable_of_ofText? {text : List Char} {f : Failure}
    (h : Node.ofText? text = .error f) : f.isFlaw = true ∨ Unscannable text f := by
  have hsettled := Grammar.settled_document (tokens text).1 ((tokens text).2.getD .grammar)
  obtain hending | hflaw := hsettled f h
  · cases hfailure : (tokens text).2 with
    | none =>
      rw [hfailure] at hending
      rw [hending]
      exact .inl rfl
    | some f' =>
      rw [hfailure] at hending
      rw [hending]
      exact .inr (unscannable_of_tokens hfailure)
  · exact .inl hflaw

end EntityGraph.Yaml
