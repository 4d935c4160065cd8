import EntityGraph.Calendar
import EntityGraph.Number.Integer
import EntityGraph.Text.Quoted

/-!
# Failures of YAML text

What keeps a text from being a document. Most failures are flaws of the text and are known by the
stage that meets them, and in which words they are told is left open; the others are values that a
scalar or an escape asks for and that do not exist, and these carry a message of their own.
-/

namespace EntityGraph.Yaml

/-- Why the text of a scalar does not give a value of the kind that its tag asks for. -/
inductive ScalarFault where
  | calendar (e : CalendarError)
  | notWhole (base : Nat) (text : Text)
  | tooManyDigits (count : Nat)
  | notDecimal (text : Text)
  /-- A weight of the base-sixty notation is out of range. -/
  | tooLarge
  /-- A number without any character. -/
  | empty
  | notTruth (word : Text)
  | notMoment
  /-- A moment was expected and a mapping was found. -/
  | notText
  deriving DecidableEq, Repr

namespace ScalarFault

/-- The word that names the kind of fault in a report. -/
def label : ScalarFault → String
  | .calendar _ | .notWhole _ _ | .tooManyDigits _ | .notDecimal _ => "ValueError"
  | .tooLarge => "OverflowError"
  | .empty => "IndexError"
  | .notTruth _ => "KeyError"
  | .notMoment => "AttributeError"
  | .notText => "TypeError"

/-- How much of a quoted text is shown where it is no whole number. -/
def shownLength : Nat := 200

def message : ScalarFault → Text
  | .calendar e => e.message
  | .notWhole base text =>
    "invalid literal for int() with base " ++ toString base ++ ": " ++
      text.quoted.take shownLength
  | .tooManyDigits count =>
    Integer.limitMessage ++ ": value has " ++ toString count ++ " digits" ++ Integer.limitAdvice
  | .notDecimal text => "could not convert string to float: " ++ Text.quoted text
  | .tooLarge => "int too large to convert to float"
  | .empty => "string index out of range"
  | .notTruth word => Text.quoted word
  | .notMoment => "'NoneType' object has no attribute 'groupdict'"
  | .notText => "expected string or bytes-like object, got 'list'"

end ScalarFault

/-- What keeps a text from being a document. -/
inductive Failure where
  /-- A character that no document may hold. -/
  | character
  /-- Characters that are no token. -/
  | token
  /-- A token where another one is expected. -/
  | grammar
  /-- An alias without an anchor, an anchor that is taken, or a second document. -/
  | reference
  /-- A node whose tag is unknown or does not fit it. -/
  | construction
  /-- An escape asks for a character that does not exist. -/
  | escape (code : Nat)
  | scalar (f : ScalarFault)
  deriving DecidableEq, Repr

namespace Failure

/-- Whether the text itself is flawed. The other failures are about values that do not exist. -/
def isFlaw : Failure → Bool
  | .escape _ | .scalar _ => false
  | _ => true

/-- The word that names the kind of failure in a report. -/
def label : Failure → String
  | .character => "ReaderError"
  | .token => "ScannerError"
  | .grammar => "ParserError"
  | .reference => "ComposerError"
  | .construction => "ConstructorError"
  | .escape code => if code < 0x80000000 then "ValueError" else "OverflowError"
  | .scalar f => f.label

/-- What a report says about a value that does not exist. Nothing is said here about a flaw, which
is told in the words of whoever reads the text. -/
def impossibility : Failure → Text
  | .escape code =>
    if code < 0x80000000 then "chr() arg not in range(0x110000)"
    else "Python int too large to convert to C int"
  | .scalar f => f.message
  | _ => []

end Failure

/-- The words in which flaws are told: what is said about a failure in a text. They may take several
lines, with the place of the flaw and a piece of the text around it. -/
abbrev Wording := Text → Failure → Text

end EntityGraph.Yaml
