import EntityGraph.Yaml.Cursor

/-!
# Tokens

The tokens of a YAML text. Besides what is written there are the tokens that indentation implies:
the start of a block sequence or mapping, and the end of either.
-/

namespace EntityGraph.Yaml

/-- A line that says how the document after it is to be read. -/
inductive Directive where
  | version (major minor : Nat)
  | handle (name meaning : String)
  | other
  deriving DecidableEq, Repr

/-- What a token is. -/
inductive Lexeme where
  | textEnd
  | directive (d : Directive)
  | documentStart
  | documentEnd
  | blockSequence
  | blockMapping
  | blockEnd
  | flowSequence
  | flowSequenceEnd
  | flowMapping
  | flowMappingEnd
  | item
  | separator
  | key
  | value
  | alias (name : String)
  | anchor (name : String)
  /-- A tag with the handle that abbreviates it, if there is one. -/
  | tag (handle : Option String) (suffix : String)
  /-- A scalar; it is plain if it is written without quotes and without a block mark. -/
  | scalar (text : Text) (plain : Bool)
  deriving DecidableEq, Repr

/-- A lexeme and where it starts and stops. -/
structure Token where
  lexeme : Lexeme
  start : Place
  stop : Place
  deriving DecidableEq, Repr

end EntityGraph.Yaml
