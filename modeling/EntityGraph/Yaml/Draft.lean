import EntityGraph.Table
import EntityGraph.Yaml.ScalarValue
import EntityGraph.Yaml.Step

/-!
# Values of nodes

The value that a node stands for. A value is drafted together with the steps towards it; the value
counts only if none of them fails. Collections are filled after everything at their own depth is
known, so the steps at a lesser depth come first, and those at one depth as they are written.

A mapping may merge others into itself. The entries merged in come before its own, so that its own
win; of several mappings merged by one key, earlier ones win over later ones.
-/

namespace EntityGraph.Yaml

/-- A value with the steps towards it, each with its depth. -/
structure Draft (α : Type) where
  value : α
  steps : List (Nat × Step) := []
  deriving Repr

namespace Draft

variable {α β : Type}

/-- The steps towards a part of a collection, as steps towards the collection. -/
def inner (d : Draft α) : List (Nat × Step) := d.steps.map fun s ↦ (s.1 + 1, s.2)

/-- Steps at a depth. -/
def atDepth (depth : Nat) (steps : List Step) : List (Nat × Step) := steps.map (depth, ·)

/-- A failure in place of a value. -/
def failed (f : Failure) : Draft Value := ⟨.null, [(0, .fails f)]⟩

/-- A collection that cannot be filled. It is a collection all the same, and so it is no key. -/
def unfilled : Draft Value := ⟨.seq [], [(1, .fails .construction)]⟩

/-- The steps in their order. -/
def ordered (d : Draft α) : List Step :=
  (d.steps.mergeSort fun s t ↦ s.1 ≤ t.1).map (·.2)

/-- The value, or the failure that is met first. -/
def outcome (d : Draft α) : Except Failure α :=
  (Progress.afterAll {} d.ordered).map fun _ ↦ d.value

/-- The draft of a scalar. -/
def ofScalar (x : Except Failure Value) : Draft Value :=
  match x with
  | .ok v => ⟨v, []⟩
  | .error f => failed f

/-- A sequence of parts. -/
def ofItems (items : List (Draft Value)) : Draft (List Value) :=
  ⟨items.map (·.value), items.flatMap inner⟩

/-- An entry's steps; a key has to be one. -/
def entrySteps (e : Draft Value × Draft Value) : List (Nat × Step) :=
  e.1.inner ++ (if e.1.value.isKey then [] else [(1, .fails .construction)]) ++ e.2.inner

/-- A mapping of parts, after some first steps. A repeated key keeps its place and takes the last
value. -/
def ofEntries (first : List Step) (entries : List (Draft Value × Draft Value)) :
    Draft (Table Value) :=
  ⟨entries.foldl (fun t e ↦ t.insert e.1.value e.2.value) [],
    atDepth 1 first ++ entries.flatMap entrySteps⟩

/-- The draft of what a value is made of. -/
def map (f : α → β) (d : Draft α) : Draft β := ⟨f d.value, d.steps⟩

end Draft

namespace Node

/-- Whether the entries under a key are to be merged into its mapping. -/
def isMerge (key : Node) : Bool := key.tag = .merge

/-! ## Collections read as scalars -/

mutual

/-- The text of a node where a scalar is expected: its own, or that under the default key of a
mapping. The default keys on the way to it come with it. -/
def scalarText? : Node → Option (Text × List Place)
  | .scalar _ text _ => some (text, [])
  | .seq _ _ _ => none
  | .map _ entries _ => defaultText? entries

/-- The text under the default key. -/
def defaultText? : List (Node × Node) → Option (Text × List Place)
  | [] => none
  | (k, v) :: rest =>
    if k.tag = .value then (scalarText? v).map fun t ↦ (t.1, k.place :: t.2)
    else defaultText? rest

end

/-- How a collection is read under the tag of a scalar. Nodes are numbered from a label on, so that
values that are no numbers can be told apart. -/
def draftAsScalar (label : Nat) (tag : Tag) (n : Node) : Draft Value :=
  match scalarText? n with
  | none => .failed .construction
  | some (text, keys) =>
    let read : Draft Value :=
      match tag, n with
      | .timestamp, .map _ _ _ => .failed (.scalar .notText)
      | _, _ => .ofScalar (ScalarValue.ofText tag (label + n.place.index) text)
    { read with steps := (0, .readsDefault n.place keys) :: read.steps }

/-- How a collection without an own rule for its tag is read: a collection of another kind was
expected, a scalar was expected, or the tag has no meaning. A default key is read as a text. -/
def draftMisfit (label : Nat) (tag : Tag) (n : Node) : Draft Value :=
  match tag with
  | .seq | .omap | .pairs | .map | .set => .unfilled
  | .merge | .yaml | .other _ => .failed .construction
  | .value =>
    let read := draftAsScalar label .str n
    { read with steps := (0, .needsText n.place) :: read.steps }
  | _ => draftAsScalar label tag n

/-! ## Merging -/

mutual

/-- The steps in which a mapping takes in what it merges: the default keys among its entries become
texts, and so do those of the mappings that it merges. -/
def mergeSteps : List (Node × Node) → List Step
  | [] => []
  | (k, v) :: rest =>
    (if k.isMerge then mergeStepsOf v
      else if k.tag = .value then [.makesText k.place] else []) ++ mergeSteps rest

/-- The steps in which one node is merged; only mappings and sequences of them can be. -/
def mergeStepsOf : Node → List Step
  | .scalar _ _ _ => [.fails .construction]
  | .seq _ items _ => mergeStepsOfItems items
  | .map _ entries place => mergeSteps entries ++ [.merges place]

def mergeStepsOfItems : List Node → List Step
  | [] => []
  | .map _ entries place :: rest =>
    mergeSteps entries ++ .merges place :: mergeStepsOfItems rest
  | _ :: _ => [.fails .construction]

end

/-! ## Values of nodes -/

mutual

/-- The value of a node. -/
def draft (label : Nat) : Node → Draft Value
  | .scalar tag text place =>
    match tag with
    | .seq | .omap | .pairs | .map | .set => .unfilled
    | .value => ⟨.str text, [(0, .needsText place)]⟩
    | _ => .ofScalar (ScalarValue.ofText tag (label + place.index) text)
  | .seq tag items place =>
    match tag with
    | .seq => (Draft.ofItems (draftItems label items)).map .seq
    | .omap | .pairs => (draftPairs label items).map .seq
    | _ => draftMisfit label tag (.seq tag items place)
  | .map tag entries place =>
    let whole :=
      Draft.ofEntries (mergeSteps entries ++ [.merges place])
        (mergedIn label entries ++ draftEntries label entries)
    match tag with
    | .map => whole.map .map
    | .set => whole.map fun t ↦ .set t.names
    | _ => draftMisfit label tag (.map tag entries place)

def draftItems (label : Nat) : List Node → List (Draft Value)
  | [] => []
  | n :: rest => draft label n :: draftItems label rest

/-- Items that are each a mapping of one entry, as pairs. A mapping that merges others has one entry
only if it has taken them in before. -/
def draftPairs (label : Nat) : List Node → Draft (List Value)
  | [] => ⟨[], []⟩
  | .map _ entries place :: rest =>
    let isPlain := match entries with
      | [(k, _)] => !k.isMerge
      | _ => false
    let known := if isPlain then [] else [(1, Step.needsMerged place)]
    match if isPlain then draftParts label entries
      else mergedIn label entries ++ draftEntries label entries with
    | [(key, value)] =>
      let more := draftPairs label rest
      ⟨.pair key.value value.value :: more.value,
        known ++ key.inner ++ value.inner ++ more.steps⟩
    | _ => ⟨[], [(1, .fails .construction)]⟩
  | _ :: _ => ⟨[], [(1, .fails .construction)]⟩

/-- Keys and values by themselves. -/
def draftParts (label : Nat) : List (Node × Node) → List (Draft Value × Draft Value)
  | [] => []
  | (k, v) :: rest => (draft label k, draft label v) :: draftParts label rest

/-- The entries of a mapping that are its own. The default key counts as a text. -/
def draftEntries (label : Nat) : List (Node × Node) → List (Draft Value × Draft Value)
  | [] => []
  | (k, v) :: rest =>
    if k.isMerge then draftEntries label rest
    else
      let key := if k.tag = .value then draftAsScalar label .str k else draft label k
      (key, draft label v) :: draftEntries label rest

/-- The entries that a mapping merges into itself. -/
def mergedIn (label : Nat) : List (Node × Node) → List (Draft Value × Draft Value)
  | [] => []
  | (k, v) :: rest => (if k.isMerge then mergedFrom label v else []) ++ mergedIn label rest

/-- The entries of a mapping, or of a sequence of mappings, where they are merged. -/
def mergedFrom (label : Nat) : Node → List (Draft Value × Draft Value)
  | .scalar _ _ _ => []
  | .seq _ items _ => mergedItems label items
  | .map _ entries _ => mergedIn label entries ++ draftEntries label entries

/-- The entries of several mappings, those of the last one first. -/
def mergedItems (label : Nat) : List Node → List (Draft Value × Draft Value)
  | [] => []
  | .map _ entries _ :: rest =>
    mergedItems label rest ++ (mergedIn label entries ++ draftEntries label entries)
  | _ :: _ => []

end

/-- The value of a node, or the first failure on the way to it. -/
def value? (label : Nat) (n : Node) : Except Failure Value := (n.draft label).outcome

end Node

end EntityGraph.Yaml
