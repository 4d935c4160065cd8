import EntityGraph.Text.Quoted
import EntityGraph.Value.Basic

/-!
# The text of values

Two texts of a value occur in messages. `Value.shown` writes a value so that its kind can be told:
texts in quotes, mappings in braces. `Value.plain` is the same but for texts, which stand for
themselves, and dates, which are written the usual way. Both are meant for values that are writable:
a whole number with too many digits has no text.
-/

namespace EntityGraph.Value

/-- Texts between commas and around brackets. -/
def enclosed (left right : Text) (parts : List Text) : Text :=
  left ++ Text.joined ", " parts ++ right

mutual

/-- A value as messages show it. -/
def shown : Value → Text
  | .null => "None"
  | .bool b => if b then "True" else "False"
  | .int n => Text.ofChars (signedDigits n)
  | .float x => x.text
  | .str t => Text.quoted t
  | .bytes bs => Text.quotedBytes bs
  | .date d => d.shown
  | .moment t => t.shown
  | .seq items => enclosed "[" "]" (shownItems items)
  | .pair a b => enclosed "(" ")" [shown a, shown b]
  | .map entries => enclosed "\x7b" "\x7d" (shownEntries entries)
  | .set [] => "set()"
  | .set items => enclosed "\x7b" "\x7d" (shownItems items)

/-- Each item as messages show it. -/
def shownItems : List Value → List Text
  | [] => []
  | v :: rest => shown v :: shownItems rest

/-- Each entry as messages show it: key, colon, value. -/
def shownEntries : List (Value × Value) → List Text
  | [] => []
  | (k, v) :: rest => (shown k ++ ": " ++ shown v) :: shownEntries rest

end

/-- A value as a text: a text is itself, a date is written the usual way, everything else as
messages show it. -/
def plain : Value → Text
  | .str s => s
  | .date d => d.iso
  | .moment t => t.iso " "
  | v => v.shown

end EntityGraph.Value
