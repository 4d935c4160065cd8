import EntityGraph.Number.Integer
import EntityGraph.Text.Case
import EntityGraph.Yaml.Timestamp

/-!
# Tags

The tag of a node says which kind of value it stands for. A plain scalar without a tag gets one by
its form: words for truth and absence, whole numbers in several bases, numbers with a point, dates
and moments. Everything else is a text.
-/

namespace EntityGraph.Yaml

/-- The kinds of values that nodes stand for. -/
inductive Tag where
  | null | bool | int | float | binary | timestamp | str
  | seq | omap | pairs | map | set
  /-- The key of entries to be merged in, and the key of a default value. -/
  | merge | value
  | yaml
  | other (uri : String)
  deriving DecidableEq, Repr

namespace Tag

/-- What the names of the known tags start with. -/
def space : String := "tag:yaml.org,2002:"

/-- The known tags by their names. -/
def known : List (Tag × String) :=
  [(.null, "null"), (.bool, "bool"), (.int, "int"), (.float, "float"), (.binary, "binary"),
    (.timestamp, "timestamp"), (.str, "str"), (.seq, "seq"), (.omap, "omap"), (.pairs, "pairs"),
    (.map, "map"), (.set, "set"), (.merge, "merge"), (.value, "value"), (.yaml, "yaml")]

/-- The tag of a full name. -/
def ofUri (uri : String) : Tag :=
  match known.find? fun t ↦ space ++ t.2 = uri with
  | some (t, _) => t
  | none => .other uri

/-- The full name of a tag. -/
def uri : Tag → String
  | .other uri => uri
  | t => space ++ (((known.find? fun k ↦ k.1 = t).map (·.2)).getD "")

/-! ## Tags by form -/

/-- The words that stand for the truth values, apart from their case. -/
def truthWords : List (String × Bool) :=
  [("yes", true), ("no", false), ("true", true), ("false", false), ("on", true), ("off", false)]

/-- Whether a word is all small, all large, or large at its start only. -/
def hasUsualCase (word : List Char) : Bool :=
  let small := Text.lowerLatin word
  word == small || word == Text.upperLatin word ||
    word == Text.upperLatin (small.take 1) ++ small.drop 1

/-- Whether a form is one of some words, in a usual case. -/
def isWord (words : List String) (form : List Char) : Bool :=
  hasUsualCase form && words.contains (String.ofList (Text.lowerLatin form))

/-- Whether characters are a digit with digits and underscores after it. -/
def isDigitRun (cs : List Char) : Bool :=
  match cs with
  | [] => false
  | c :: rest => c.isDigit && rest.all fun x ↦ x.isDigit || x == '_'

/-- Whether a part of the base-sixty notation after the first is less than sixty. -/
def isSixtieth (cs : List Char) : Bool :=
  match cs with
  | [a] => a.isDigit
  | [a, b] => '0' ≤ a && a ≤ '5' && b.isDigit
  | _ => false

/-- Whether a form is a number of the base-sixty notation: parts between colons. -/
def isSexagesimal (cs : List Char) : Bool :=
  match Text.partsBetween ':' cs with
  | first :: part :: rest => isDigitRun first && (part :: rest).all isSixtieth
  | _ => false

def dropSign (cs : List Char) : List Char := (Integer.splitSign cs).2

/-- Whether a form is a whole number in base two, eight, ten, sixteen or sixty. -/
def isInt (form : List Char) : Bool :=
  match dropSign form with
  | [] => false
  | ['0'] => true
  | '0' :: 'b' :: ds =>
    !ds.isEmpty && ds.all fun c ↦ c == '0' || c == '1' || c == '_'
  | '0' :: 'x' :: ds =>
    !ds.isEmpty && ds.all fun c ↦ isHexDigit c || c == '_'
  | '0' :: ds => ds.all fun c ↦ ('0' ≤ c && c ≤ '7') || c == '_'
  | cs => isDigitRun cs || isSexagesimal cs

/-- Whether characters are nothing, or an exponent with its sign. -/
def isExponent (cs : List Char) : Bool :=
  match cs with
  | [] => true
  | e :: sign :: ds =>
    (e == 'e' || e == 'E') && (sign == '+' || sign == '-') && !ds.isEmpty && ds.all Char.isDigit
  | _ => false

/-- The two sides of the first point, if there is one. -/
def splitPoint (cs : List Char) : Option (List Char × List Char) :=
  match cs.dropWhile (· != '.') with
  | [] => none
  | _ :: after => some (cs.takeWhile (· != '.'), after)

/-- The words after a point for an infinity. -/
def infinityWords : List String := ["inf", "Inf", "INF"]

/-- The words after a point for what is no number. -/
def nanWords : List String := ["nan", "NaN", "NAN"]

/-- Whether a form is a number with a point, or a word for an infinity or for what is no number. The
exponent needs its sign, and a number that starts with its point takes none. -/
def isFloat (form : List Char) : Bool :=
  let cs := dropSign form
  let isPart (c : Char) : Bool := c.isDigit || c == '_'
  match splitPoint cs with
  | none => false
  | some ([], after) =>
    infinityWords.contains (String.ofList after) ||
      (cs == form && (nanWords.contains (String.ofList after) ||
        (isDigitRun (after.takeWhile isPart) && isExponent (after.dropWhile isPart))))
  | some (before, after) =>
    (isDigitRun before && isExponent (after.dropWhile isPart)) ||
      (isSexagesimal before && after.all isPart)

/-- The tag of characters. An end of line after the form does not count. -/
def ofChars (text : List Char) : Tag :=
  if text = ['\n'] then .str
  else
    let form := if text.getLast? = some '\n' then text.dropLast else text
    if isWord (truthWords.map (·.1)) form then .bool
    else if isFloat form then .float
    else if isInt form then .int
    else if form = ['<', '<'] then .merge
    else if form = [] ∨ form = ['~'] ∨ isWord ["null"] form then .null
    else if Timestamp.isForm form then .timestamp
    else if form = ['='] then .value
    else if form = ['!'] ∨ form = ['&'] ∨ form = ['*'] then .yaml
    else .str

/-- The tag of a plain scalar by its form. A half of a pair is in no form but that of a text. -/
def ofForm (t : Text) : Tag := (t.chars?.map ofChars).getD .str

end Tag

end EntityGraph.Yaml
