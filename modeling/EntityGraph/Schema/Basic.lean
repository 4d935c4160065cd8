import EntityGraph.Schema.Reference

/-!
# Schemas

What can be demanded of a document, as far as project documents need it: kinds of values, required
keys, the schemas of properties, listed values, alternatives, and references to definitions. A
schema is itself written as a document. A schema that holds a reference is that reference and
nothing else; every other schema is the list of its keywords, in the order they are written, because
findings are reported in that order.
-/

namespace EntityGraph

mutual

/-- A demand on a document. -/
inductive Schema where
  /-- Accepts everything, or nothing. -/
  | always (accepts : Bool)
  /-- The part of the schema document that a text points to. -/
  | reference (target : Text) (source : Value)
  /-- Everything that keywords demand; `source` is the document of the schema. -/
  | all (keywords : List Keyword) (source : Value)

/-- One demand of a schema. -/
inductive Keyword where
  /-- The value is of one of the named kinds. -/
  | type (names : List Text)
  /-- A mapping has these keys. -/
  | required (keys : List Text)
  /-- The values under these keys of a mapping meet their schemas. -/
  | properties (members : List (Text × Schema))
  /-- The values under all other keys of a mapping meet a schema. -/
  | others (declared : List Text) (rest : Schema)
  /-- The value is one of these. -/
  | oneOfValues (values : List Value)
  /-- The value is this one. -/
  | constant (value : Value)
  /-- Exactly one of these schemas is met. -/
  | oneOf (branches : List Schema)
  /-- All of these schemas are met. -/
  | allOf (branches : List Schema)
  /-- If the first schema is met then the second is, and otherwise the third. -/
  | conditional (condition : Schema) (yes no : Option Schema)

end

namespace Schema

/-- The document of a schema. -/
def source : Schema → Value
  | .always b => .bool b
  | .reference _ v => v
  | .all _ v => v

/-! ## Reading schemas -/

/-- The texts among some values. -/
def texts (vs : List Value) : List Text :=
  vs.filterMap fun v ↦
    match v with
    | .str t => some t
    | _ => none

/-- One text or a sequence of them. -/
def textsOf : Value → List Text
  | .str t => [t]
  | .seq vs => texts vs
  | _ => []

/-- The keys under which a schema declares properties. -/
def declaredNames (entries : List (Value × Value)) : List Text :=
  match Value.lookup "properties" entries with
  | some (.map members) => texts (members.map (·.1))
  | _ => []

mutual

/-- The schema that a document describes. What is neither a truth value nor a mapping stands for the
truth value that it counts as. -/
def ofValue : Value → Schema
  | .bool b => .always b
  | .map entries =>
    match Value.lookup "$ref" entries with
    | some (.str target) => .reference target (.map entries)
    | _ =>
      .all (keywordsOf (declaredNames entries) (branchOf "then" entries) (branchOf "else" entries)
        entries) (.map entries)
  | v => .always (!v.isBlank)
termination_by structural v => v

/-- The keywords of a schema, given the parts that belong to other keywords. -/
def keywordsOf (declared : List Text) (yes no : Option Schema) :
    List (Value × Value) → List Keyword
  | [] => []
  | (.str name, v) :: rest =>
    let demanded : List Keyword :=
      if name = "type" then [.type (textsOf v)]
      else if name = "required" then [.required (textsOf v)]
      else if name = "properties" then
        match v with
        | .map members => [.properties (membersOf members)]
        | _ => []
      else if name = "additionalProperties" then [.others declared (ofValue v)]
      else if name = "enum" then
        match v with
        | .seq vs => [.oneOfValues vs]
        | _ => []
      else if name = "const" then [.constant v]
      else if name = "oneOf" then
        match v with
        | .seq vs => [.oneOf (schemasOf vs)]
        | _ => []
      else if name = "allOf" then
        match v with
        | .seq vs => [.allOf (schemasOf vs)]
        | _ => []
      else if name = "if" then [.conditional (ofValue v) yes no]
      else []
    demanded ++ keywordsOf declared yes no rest
  | _ :: rest => keywordsOf declared yes no rest
termination_by structural entries => entries

/-- The schemas under the keys of a mapping. -/
def membersOf : List (Value × Value) → List (Text × Schema)
  | [] => []
  | (.str t, v) :: rest => (t, ofValue v) :: membersOf rest
  | _ :: rest => membersOf rest
termination_by structural entries => entries

/-- The schemas of a sequence. -/
def schemasOf : List Value → List Schema
  | [] => []
  | v :: rest => ofValue v :: schemasOf rest
termination_by structural vs => vs

/-- The schema under one key. -/
def branchOf (key : Text) : List (Value × Value) → Option Schema
  | [] => none
  | (.str t, v) :: rest => if t = key then some (ofValue v) else branchOf key rest
  | _ :: rest => branchOf key rest
termination_by structural entries => entries

end

/-! ## Schemas with references -/

mutual

/-- The texts of the references in the document of a schema. -/
def referencesIn : Value → List Text
  | .map entries => referencesInEntries entries
  | .seq items => referencesInItems items
  | _ => []
termination_by structural v => v

def referencesInEntries : List (Value × Value) → List Text
  | [] => []
  | (k, v) :: rest =>
    (match k, v with
      | .str name, .str target => if name = "$ref" then [target] else []
      | _, _ => []) ++ referencesIn v ++ referencesInEntries rest
termination_by structural entries => entries

def referencesInItems : List Value → List Text
  | [] => []
  | v :: rest => referencesIn v ++ referencesInItems rest
termination_by structural vs => vs

end

/-- What the references of a schema document lead to, by their texts. -/
abbrev Definitions := List (Text × Except Reference.Problem Schema)

/-- The definitions of a schema document: one for each text of a reference in it. -/
def definitionsOf (document : Value) : Definitions :=
  (referencesIn document).eraseDups.map fun t ↦ (t, (Reference.resolve document t).map ofValue)

end Schema

end EntityGraph
