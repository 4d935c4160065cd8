import EntityGraph.Text.Utf8
import EntityGraph.Value.Text

/-!
# References of schemas

A reference in a schema is a text with a number sign and, after it, a pointer into the document of
the schema. In the pointer a percent sign with two digits of base sixteen stands for a byte.
-/

namespace EntityGraph.Schema.Reference

/-- Why a reference leads nowhere. -/
inductive Problem where
  /-- Nothing is at the end of a pointer. -/
  | nowhere (pointer : Text) (document : Value)
  /-- No part of the document has the name. -/
  | noName (name : Text) (document : Value)
  | notAName (name : Text)
  | otherDocument (reference : Text)
  /-- The pointer goes on below a value that holds none. -/
  | notAContainer (kind : Value.Kind)
  /-- The pointer goes on below a sequence without a whole number. -/
  | notAnIndex (segment : Text)
  deriving Repr

namespace Problem

/-- The word that names the kind of problem in a report. -/
def label : Problem → String
  | .notAContainer _ => "TypeError"
  | .notAnIndex _ => "ValueError"
  | _ => "_WrappedReferencingError"

def message : Problem → Text
  | .nowhere pointer document =>
    "PointerToNowhere: " ++ pointer.quoted ++ " does not exist within " ++ document.shown ++
      if pointer = "/" then
        (". The pointer '/' is a valid JSON Pointer but it points to an empty string property " ++
          "''. If you intended to point to the entire resource, you should use '#'." : String)
      else ""
  | .noName name document =>
    "NoSuchAnchor: " ++ name.quoted ++ " does not exist within " ++ document.shown
  | .notAName name =>
    "InvalidAnchor: '#" ++ name ++ "' is not a valid anchor, neither as a plain name anchor nor " ++
      "as a JSON Pointer. You may have intended to use '#/" ++ name ++ "', as the slash is " ++
      "required *before each segment* of a JSON pointer."
  | .otherDocument reference => "Unresolvable: " ++ reference
  | .notAContainer kind => "'" ++ kind.name ++ "' object is not subscriptable"
  | .notAnIndex segment => "invalid literal for int() with base 10: " ++ segment.quoted

end Problem

/-! ## Segments -/

/-- The byte of an escape at the head of a text. -/
def escapedByte? : Text → Option (UInt8 × Text)
  | .char '%' :: .char a :: .char b :: rest =>
    (Integer.digits? 16 [a, b]).map fun n ↦ (UInt8.ofNat n, rest)
  | _ => none

/-- A text with its escapes replaced, after some bytes that are not yet characters. Each step of the
bound reads a code point or an escape. -/
def unescape : Nat → List UInt8 → Text → Text
  | 0, bytes, _ => .ofChars (Text.Utf8.decodeReplacing (bytes.length + 1) bytes)
  | bound + 1, bytes, t =>
    match escapedByte? t, t with
    | some (b, rest), _ => unescape bound (bytes ++ [b]) rest
    | none, [] => .ofChars (Text.Utf8.decodeReplacing (bytes.length + 1) bytes)
    | none, x :: rest =>
      .ofChars (Text.Utf8.decodeReplacing (bytes.length + 1) bytes) ++ x :: unescape bound [] rest

/-- The segments of a pointer, which starts with a slash. -/
def segments (pointer : Text) : List Text :=
  Text.partsBetween (.char '/') (unescape (pointer.length + 1) [] (pointer.drop 1))

/-- A segment as a key: a tilde and a one stand for a slash, a tilde and a zero for a tilde. -/
def keyOf : Text → Text
  | .char '~' :: .char '1' :: rest => .char '/' :: keyOf rest
  | .char '~' :: .char '0' :: rest => .char '~' :: keyOf rest
  | x :: rest => x :: keyOf rest
  | [] => []

/-! ## Resolution -/

/-- What a segment of a pointer leads to below a value. Negative numbers count from the end of a
sequence. -/
def below (failure : Problem) (v : Value) (segment : Text) : Except Problem Value :=
  match v with
  | .map entries =>
    match Value.lookup (keyOf segment) entries with
    | some found => .ok found
    | none => .error failure
  | .seq items =>
    match Integer.read? 10 segment with
    | none => .error (.notAnIndex segment)
    | some n =>
      let index := if n < 0 then n + items.length else n
      match if index < 0 then none else items[index.toNat]? with
      | some found => .ok found
      | none => .error failure
  | other => .error (.notAContainer other.kind)

/-- What a reference leads to in the document of a schema. -/
def resolve (document : Value) (reference : Text) : Except Problem Value :=
  match reference with
  | [.char '#'] => .ok document
  | .char '#' :: .char '/' :: rest =>
    let pointer := .char '/' :: rest
    (segments pointer).foldlM (below (.nowhere pointer document)) document
  | .char '#' :: name =>
    .error (if name.contains (.char '/') then .notAName name else .noName name document)
  | _ => .error (.otherDocument reference)

end EntityGraph.Schema.Reference
