import EntityGraph.Notice

/-!
# Remarks

The comment and the generator settings that enumerations, their items, fields and entities carry.
Settings are named by texts; a name that is not a text is taken by its text, so that two names may
fall together, and then the later value takes the place of the earlier.
-/

namespace EntityGraph

/-- Generator settings by name. -/
abbrev Settings := List (Text × Value)

namespace Settings

/-- Sets a name: in its place if it is there, or last. -/
def insert (s : Settings) (name : Text) (v : Value) : Settings :=
  match s with
  | [] => [(name, v)]
  | (n, w) :: rest => if n = name then (n, v) :: rest else (n, w) :: insert rest name v

/-- The value of a name. -/
def find? (s : Settings) (name : Text) : Option Value :=
  (List.find? (fun e ↦ e.1 = name) s).map (·.2)

/-- The entries of a document mapping, each named by the text of its key. -/
def ofEntries (entries : List (Value × Value)) : Except Fault Settings :=
  entries.foldlM (fun s e ↦ return s.insert (← e.1.written) e.2) []

def toDocument (s : Settings) : Value := .map (s.map fun e ↦ (.str e.1, e.2))

end Settings

/-- A comment and, if a document gives them, settings. -/
structure Remarks where
  comment : Text := []
  settings : Option Settings := none
  deriving Inhabited, Repr

namespace Remarks

/-- The comment of a document; one that is not a text is none. -/
def commentOf (v : Value) : Text :=
  match v.field "comment" with
  | .str t => t
  | _ => []

/-- The settings of a document; what is not a mapping is none. -/
def settingsOf (v : Value) : Except Fault (Option Settings) :=
  match v.field "config" with
  | .map entries => some <$> Settings.ofEntries entries
  | _ => .ok none

/-- The remarks of a document. They meet a fault only where a setting has no name. -/
def load (v : Value) : Query Remarks := do
  return { comment := commentOf v, settings := ← Query.ofExcept (settingsOf v) }

/-- The entries that remarks add to the document of their node. -/
def entries (r : Remarks) : List (Value × Value) :=
  (.str "comment", .str r.comment) ::
    (match r.settings with
      | some s => [(.str "config", s.toDocument)]
      | none => [])

/-- The setting of a name, or a default where there is none. Settings are looked up only if there
are any. -/
def setting (r : Remarks) (name default : Value) : Except Fault Value :=
  match r.settings with
  | none | some [] => .ok default
  | some s =>
    if name.isKey then
      .ok <| match name with
        | .str n => (s.find? n).getD default
        | _ => default
    else .error (.notAKey name.kind)

/-- Equality as parts of larger nodes; settings are compared without regard to order. -/
def same (r s : Remarks) : Bool :=
  r.comment == s.comment &&
    match r.settings, s.settings with
    | none, none => true
    | some a, some b => a.toDocument.same b.toDocument
    | _, _ => false

end Remarks

end EntityGraph
