import EntityGraph.Fault
import EntityGraph.Schema.Basic
import EntityGraph.Text.Order

/-!
# Validation

All the ways in which a value fails a schema, in the order in which they are found. A finding of
alternatives is one violation at the value itself; what went wrong inside the alternatives is not
listed.

Some violations cannot be told: a reference that leads nowhere, and whatever is about a number with
too many digits. The first of these breaks a check off. Where only one violation is needed to know
that a schema is not met, the first counts, and none after it is looked for.

A reference is followed at the value it stands at. There can be no more references in a row than
there are definitions, unless one of them leads back to itself, and then the schema demands nothing
that could be told; so the number of definitions bounds the references that are followed before the
next step into the value.
-/

namespace EntityGraph

namespace Schema

/-! ## Comparing with listed values -/

mutual

/-- Equality with a value that a schema lists. It is equality as members of a container, but a truth
value never equals a number, at any depth below sequences and mappings. -/
def listedSame : Value → Value → Bool
  | .bool a, .bool b => a == b
  | .bool _, .int _ | .bool _, .float _ | .int _, .bool _ | .float _, .bool _ => false
  | .seq xs, .seq ys => listedSameItems xs ys
  | .map xs, .map ys => xs.length == ys.length && listedEntriesIn xs ys
  | .seq xs, .bytes bs => listedSameItems xs (bs.map fun b ↦ .int b.toNat)
  | .seq xs, .pair a b => listedSameItems xs [a, b]
  | x, y => x.same y
termination_by structural x => x

/-- Sequences are equal item by item. -/
def listedSameItems : List Value → List Value → Bool
  | [], [] => true
  | x :: xs, y :: ys => listedSame x y && listedSameItems xs ys
  | _, _ => false
termination_by structural x => x

/-- Every entry of the first mapping is in the second. -/
def listedEntriesIn : List (Value × Value) → List (Value × Value) → Bool
  | [], _ => true
  | (k, v) :: xs, ys =>
    (match ys.find? fun e ↦ k.same e.1 with
      | some e => listedSame v e.2
      | none => false) && listedEntriesIn xs ys
termination_by structural x => x

end

/-- Whether a value is of a kind that a schema can name. Truth values are not numbers, and a number
with a point is an integer if its value is. -/
def hasType (v : Value) (name : Text) : Bool :=
  match v with
  | .null => name == "null"
  | .bool _ => name == "boolean"
  | .int _ => name == "integer" || name == "number"
  | .float x => name == "number" || (name == "integer" && x.toInt?.isSome)
  | .str _ => name == "string"
  | .seq _ => name == "array"
  | .map _ => name == "object"
  | _ => false

/-! ## Violations -/

/-- Why a value fails a demand. -/
inductive Cause where
  | wrongType (v : Value) (names : List Text)
  | missingKey (key : Text)
  | notListed (v : Value) (values : List Value)
  | notConstant (value : Value)
  | noBranch (v : Value)
  /-- Several alternatives are met: the later ones, and last the first. -/
  | severalBranches (v : Value) (met : List Value)
  | forbidden (v : Value)
  /-- Keys that are not declared are there, and nothing may be under them. -/
  | undeclared (keys : List Value)
  | unresolved (p : Reference.Problem)

/-- A failed demand and where it was made: the keys from the root on. -/
structure Violation where
  path : List Value
  cause : Cause

namespace Cause

/-- The fault that a cause is, if it cannot be told. -/
def fault? : Cause → Option Fault
  | .wrongType v _ | .noBranch v | .forbidden v | .notConstant v => numberFault v.isWritable
  | .notListed v values => numberFault (v.isWritable && Value.areWritable values)
  | .severalBranches v met => numberFault (v.isWritable && Value.areWritable met)
  | .undeclared keys => numberFault (Value.areWritable keys)
  | .unresolved p => some (.reference p)
  | .missingKey _ => none
where
  /-- The fault of asking for a text that there is not. -/
  numberFault (isWritable : Bool) : Option Fault := if isWritable then none else some .numberTooLong

def message : Cause → Text
  | .wrongType v names =>
    v.shown ++ " is not of type " ++ Text.joined ", " (names.map Text.quoted)
  | .missingKey key => Text.quoted key ++ " is a required property"
  | .notListed v values => v.shown ++ " is not one of " ++ (Value.seq values).shown
  | .notConstant value => value.shown ++ " was expected"
  | .noBranch v => v.shown ++ " is not valid under any of the given schemas"
  | .severalBranches v met =>
    v.shown ++ " is valid under each of " ++ Text.joined ", " (met.map Value.shown)
  | .forbidden v => "False schema does not allow " ++ v.shown
  | .undeclared keys =>
    "Additional properties are not allowed (" ++ Text.joined ", " (keys.map Value.shown) ++
      (if keys.length = 1 then " was" else " were") ++ " unexpected)"
  | .unresolved p => p.message

end Cause

/-- A violation here. -/
def here (cause : Cause) : List Violation := [⟨[], cause⟩]

/-- The violations of the value under a key, seen from the mapping. A key that is null is no step of
the path. -/
def under (key : Value) (vs : List Violation) : List Violation :=
  if key.isNull then vs else vs.map fun v ↦ { v with path := key :: v.path }

/-- Whether a violation cannot be told. -/
def Violation.breaksOff (v : Violation) : Bool := v.cause.fault?.isSome

/-- The violations of the value under a key by its schema. A schema that accepts nothing does not
tell the key. -/
def underKey (key : Value) (s : Schema) (vs : List Violation) : List Violation :=
  match s with
  | .always _ => vs
  | _ => under key vs

/-- The keys of a mapping that are not declared, in the order of their texts. -/
def undeclaredKeys (declared : List Text) (entries : List (Value × Value)) : List Value :=
  let keys := (entries.map (·.1)).filter fun key ↦ !declared.any fun name ↦ key.same (.str name)
  keys.mergeSort fun a b ↦ !(b.plain < a.plain)

/-- The finding of the alternatives after the first that is met. Of each of them only the first
violation is looked for. -/
def chooseLater (v : Value) (first : Schema) (met : List Schema) :
    List (Schema × List Violation) → List Violation
  | [] =>
    if met.isEmpty then []
    else here (.severalBranches v ((met ++ [first]).map source))
  | (s, []) :: rest => chooseLater v first (met ++ [s]) rest
  | (_, found :: _) :: rest => if found.breaksOff then [found] else chooseLater v first met rest

/-- The finding of alternatives, given the violations of each. -/
def choose (v : Value) : List (Schema × List Violation) → List Violation
  | [] => here (.noBranch v)
  | (s, []) :: rest => chooseLater v s [] rest
  | (_, vs) :: rest =>
    match vs.find? Violation.breaksOff with
    | some broken => [broken]
    | none => choose v rest

/-! ## Checking -/

/-- A value under a key is smaller than the entries it is in. -/
theorem sizeOf_lookup_lt {key : Text} {entries : List (Value × Value)} {v : Value}
    (h : Value.lookup key entries = some v) : sizeOf v < sizeOf entries := by
  induction entries with
  | nil => cases h
  | cons e rest ih =>
    obtain ⟨k, w⟩ := e
    have tail : Value.lookup key rest = some v → sizeOf v < sizeOf ((k, w) :: rest) := by
      intro h
      have := ih h
      simp only [List.cons.sizeOf_spec]
      omega
    cases k with
    | str s =>
      simp only [Value.lookup] at h
      split at h
      · cases h
        simp only [List.cons.sizeOf_spec, Prod.mk.sizeOf_spec]
        omega
      · exact tail h
    | _ => exact tail h

mutual

/-- The violations of a schema by a value. -/
def check (defs : Definitions) (budget : Nat) (s : Schema) (v : Value) : List Violation :=
  match s with
  | .always accepts => if accepts then [] else here (.forbidden v)
  | .reference target _ =>
    match budget with
    | 0 => []
    | budget + 1 =>
      match defs.lookup target with
      | some (.ok s) => check defs budget s v
      | some (.error p) => here (.unresolved p)
      | none => []
  | .all keywords _ => checkAll defs budget keywords v
termination_by (sizeOf v, budget, sizeOf s)

/-- The violations of keywords, one keyword after the other. -/
def checkAll (defs : Definitions) (budget : Nat) (ks : List Keyword) (v : Value) :
    List Violation :=
  match ks with
  | [] => []
  | k :: rest => checkKeyword defs budget k v ++ checkAll defs budget rest v
termination_by (sizeOf v, budget, sizeOf ks)

/-- The violations of one keyword. -/
def checkKeyword (defs : Definitions) (budget : Nat) (k : Keyword) (v : Value) :
    List Violation :=
  match k with
  | .type names => if names.any (hasType v) then [] else here (.wrongType v names)
  | .required keys =>
    match v with
    | .map entries =>
      keys.flatMap fun key ↦
        if (Value.lookup key entries).isSome then [] else here (.missingKey key)
    | _ => []
  | .properties members =>
    match v with
    | .map entries => checkMembers defs members entries
    | _ => []
  | .others declared rest =>
    match v with
    | .map entries =>
      match rest, undeclaredKeys declared entries with
      | .always true, _ | .always false, [] => []
      | .always false, keys => here (.undeclared keys)
      | s, _ => checkOthers defs declared s entries
    | _ => []
  | .oneOfValues values =>
    if values.any fun w ↦ listedSame w v then [] else here (.notListed v values)
  | .constant value => if listedSame value v then [] else here (.notConstant value)
  | .oneOf branches => choose v (branches.zip (checkEach defs budget branches v))
  | .allOf branches => (checkEach defs budget branches v).flatten
  | .conditional condition yes no =>
    match check defs budget condition v with
    | [] =>
      match yes with
      | some s => check defs budget s v
      | none => []
    | found :: _ =>
      if found.breaksOff then [found]
      else
        match no with
        | some s => check defs budget s v
        | none => []
termination_by (sizeOf v, budget, sizeOf k)

/-- The violations of each of some schemas. -/
def checkEach (defs : Definitions) (budget : Nat) (ss : List Schema) (v : Value) :
    List (List Violation) :=
  match ss with
  | [] => []
  | s :: rest => check defs budget s v :: checkEach defs budget rest v
termination_by (sizeOf v, budget, sizeOf ss)

/-- The violations below the declared keys of a mapping. -/
def checkMembers (defs : Definitions) (members : List (Text × Schema))
    (entries : List (Value × Value)) : List Violation :=
  match members with
  | [] => []
  | (key, s) :: rest =>
    (match _found : Value.lookup key entries with
      | some v => underKey (.str key) s (check defs defs.length s v)
      | none => []) ++ checkMembers defs rest entries
termination_by (sizeOf entries, 0, sizeOf members)
decreasing_by
  · exact Prod.Lex.left _ _ (sizeOf_lookup_lt _found)
  · refine Prod.Lex.right _ (Prod.Lex.right _ ?_)
    simp only [List.cons.sizeOf_spec]
    omega

/-- The violations below all keys of a mapping that are not declared. -/
def checkOthers (defs : Definitions) (declared : List Text) (s : Schema)
    (entries : List (Value × Value)) : List Violation :=
  match entries with
  | [] => []
  | (key, v) :: rest =>
    (if declared.any fun name ↦ key.same (.str name) then []
      else underKey key s (check defs defs.length s v)) ++ checkOthers defs declared s rest
termination_by (sizeOf entries, 0, 0)

end

/-- The violations of a schema document by a value. -/
def violations (schema v : Value) : List Violation :=
  let defs := definitionsOf schema
  check defs defs.length (ofValue schema) v

end Schema

end EntityGraph
