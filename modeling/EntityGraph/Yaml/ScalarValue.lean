import EntityGraph.Number.Base64
import EntityGraph.Number.Integer
import EntityGraph.Yaml.Node

/-!
# Values of scalars

The value that the text of a scalar gives under its tag. Underscores in numbers do not count, and
numbers of several parts between colons are read in base sixty.
-/

namespace EntityGraph.Yaml.ScalarValue

/-- Splits off a sign: whether it is a minus, and the rest. -/
def splitSign : Text → Bool × Text
  | .char '-' :: rest => (true, rest)
  | .char '+' :: rest => (false, rest)
  | t => (false, t)

/-- The text of a number without underscores, with its sign split off: whether it is a minus, and
the rest. A number needs a character. -/
def splitNumber (t : Text) : Except ScalarFault (Bool × Text) :=
  let body := t.filter (· != .char '_')
  if body.isEmpty then .error .empty else .ok (splitSign body)

/-- The parts of a number between colons. -/
def sixtieths (t : Text) : List Text := Text.partsBetween (.char ':') t

/-- A whole number of a base, which has to be one. In base ten its digits are limited. -/
def readWhole (base : Nat) (t : Text) : Except ScalarFault Int :=
  let digits := ((Integer.splitSign t.numeral).2.takeWhile Char.isDigit).length
  if base = 10 ∧ Integer.digitLimit < digits then .error (.tooManyDigits digits)
  else
    match Integer.read? base t with
    | some n => .ok n
    | none => .error (.notWhole base t)

/-- A whole number: in base two or sixteen after its mark, in base eight after a zero, in base sixty
between colons, and otherwise in base ten. -/
def int (t : Text) : Except ScalarFault Int := do
  let (negative, t) ← splitNumber t
  let magnitude ← match t with
    | [] => throw .empty
    | .char '0' :: .char 'b' :: ds => readWhole 2 ds
    | .char '0' :: .char 'x' :: ds => readWhole 16 ds
    | [.char '0'] => pure 0
    | .char '0' :: _ => readWhole 8 t
    | _ => do
      let parts ← (sixtieths t).mapM (readWhole 10)
      pure (parts.foldl (fun n part ↦ 60 * n + part) 0)
  return if negative then -magnitude else magnitude

/-- A number with a point, or a word for an infinity or for what is no number. -/
def readDecimal (t : Text) : Except ScalarFault Binary64 :=
  let (negative, body) := Integer.splitSign t.numeral
  let word := String.ofList body
  if word = "inf" ∨ word = "infinity" then .ok (.infinite negative)
  else if word = "nan" then .ok (.nan 0)
  else
    match Decimal.read? body with
    | some d => .ok (d.toBinary64 negative)
    | none => .error (.notDecimal t)

/-- The sum of parts by their weights, from the last part on, where each weight is sixty times the
one before it. -/
def sumSixtieths (weight : Nat) (sum : Binary64) : List Binary64 → Except ScalarFault Binary64
  | [] => .ok sum
  | part :: rest =>
    match Binary64.ofInt weight with
    | .infinite _ => .error .tooLarge
    | w => sumSixtieths (60 * weight) (sum.add (part.mul w)) rest

/-- The label of what the word `.nan` stands for, which is one value throughout. -/
def sharedLabel : Nat := 1

/-- A number with a point, also in base sixty between colons. Whatever comes out as no number is a
value of its own, told by its label, but for the word `.nan`. -/
def float (label : Nat) (t : Text) : Except ScalarFault Binary64 := do
  let (negative, t) ← splitNumber (Text.lower t)
  if t = ".nan" then return .nan sharedLabel
  let magnitude ←
    if t = ".inf" then pure (.infinite false)
    else
      match sixtieths t with
      | [_] => readDecimal t
      | parts => do sumSixtieths 1 .zero (← parts.mapM readDecimal).reverse
  return match magnitude with
    | .nan _ => .nan label
    | m => if negative then m.negate else m

/-- A truth value by its word. -/
def bool (t : Text) : Except ScalarFault Bool :=
  let word := t.lower
  match word.toString?.bind fun s ↦ Tag.truthWords.lookup s with
  | some b => .ok b
  | none => .error (.notTruth word)

/-- A date or a moment. An end of line after it does not count. -/
def timestamp (t : Text) : Except ScalarFault Value :=
  let form : Text := if t.getLast? = some (.char '\n') then t.dropLast else t
  match form.chars?.bind Timestamp.read? with
  | none => .error .notMoment
  | some stamp => stamp.toValue.mapError .calendar

/-- The value of a text under a tag. Tags of collections and tags without a meaning give none. The
label tells values apart that are no numbers. -/
def ofText (tag : Tag) (label : Nat) (t : Text) : Except Failure Value :=
  match tag with
  | .null => .ok .null
  | .bool => (bool t).map .bool |>.mapError .scalar
  | .int => (int t).map .int |>.mapError .scalar
  | .float => (float label t).map .float |>.mapError .scalar
  | .timestamp => (timestamp t).mapError .scalar
  | .str => .ok (.str t)
  | .binary =>
    match (t.chars?.filter fun cs ↦ cs.all (·.toNat < 0x80)).bind Base64.decode? with
    | some bytes => .ok (.bytes bytes)
    | none => .error .construction
  | _ => .error .construction

end EntityGraph.Yaml.ScalarValue
