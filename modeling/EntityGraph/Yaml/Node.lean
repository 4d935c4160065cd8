import EntityGraph.Yaml.Tag

/-!
# Nodes

The tree that a YAML text stands for. Each node has a tag and the place where it starts. An alias is
the node that its anchor names, place included.
-/

namespace EntityGraph.Yaml

/-- A node of a YAML text. -/
inductive Node where
  | scalar (tag : Tag) (text : Text) (place : Place)
  | seq (tag : Tag) (items : List Node) (place : Place)
  | map (tag : Tag) (entries : List (Node × Node)) (place : Place)
  deriving Repr

namespace Node

def tag : Node → Tag
  | .scalar tag _ _ => tag
  | .seq tag _ _ => tag
  | .map tag _ _ => tag

def place : Node → Place
  | .scalar _ _ place => place
  | .seq _ _ place => place
  | .map _ _ place => place

/-- A scalar of no characters, as it stands for what is left out. -/
def absent (place : Place) : Node := .scalar .null [] place

/-! ## Text -/

/-- What a node of a kind is shown as: its tag, and the text of its content. -/
def shownAs (kind : String) (tag : Tag) (content : Text) : Text :=
  kind ++ "(tag=" ++ Text.quoted tag.uri ++ ", value=" ++ content ++ ")"

/-- Texts between commas in brackets. -/
def bracketed (parts : List Text) : Text := "[" ++ Text.joined ", " parts ++ "]"

mutual

/-- A node as a text that shows all of it. -/
def shown : Node → Text
  | .scalar tag text _ => shownAs "ScalarNode" tag (Text.quoted text)
  | .seq tag items _ => shownAs "SequenceNode" tag (bracketed (shownItems items))
  | .map tag entries _ => shownAs "MappingNode" tag (bracketed (shownEntries entries))

def shownItems : List Node → List Text
  | [] => []
  | n :: rest => shown n :: shownItems rest

def shownEntries : List (Node × Node) → List Text
  | [] => []
  | (k, v) :: rest => ("(" ++ shown k ++ ", " ++ shown v ++ ")") :: shownEntries rest

end

/-- The text of a node as a key: that of a scalar is its own, and a collection shows what it
holds. -/
def keyText : Node → Text
  | .scalar _ text _ => text
  | .seq _ items _ => bracketed (shownItems items)
  | .map _ entries _ => bracketed (shownEntries entries)

end Node

end EntityGraph.Yaml
