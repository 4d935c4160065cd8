import EntityGraph.Text.Basic
import EntityGraph.Text.Letter

/-!
# The case of letters

Texts in small letters, whatever their script, and in capitals as far as these are Latin.
-/

namespace EntityGraph.Text

/-! ## Latin letters -/

/-- The letters of the Latin alphabet made small; every other character stays. -/
def lowerLatin (cs : List Char) : List Char := cs.map Char.toLower

/-- The letters of the Latin alphabet made large; every other character stays. -/
def upperLatin (cs : List Char) : List Char := cs.map Char.toUpper

/-- The characters outside of the Latin alphabet whose capitals are letters of it. -/
def latinCapitals : List (Char × String) :=
  [('\u00df', "SS"), ('\u0131', "I"), ('\u017f', "S"), ('\ufb00', "FF"), ('\ufb01', "FI"),
    ('\ufb02', "FL"), ('\ufb03', "FFI"), ('\ufb04', "FFL"), ('\ufb05', "ST"), ('\ufb06', "ST")]

/-- A text in capitals as far as these are letters of the Latin alphabet; every other character
stays. -/
def capitals (t : Text) : Text :=
  t.flatMap fun
    | .half offset => [.half offset]
    | .char c =>
      match latinCapitals.lookup c with
      | some s => ofString s
      | none => [.char c.toUpper]

/-! ## Small letters -/

/-- The code of the capital sigma. -/
def capitalSigma : Nat := 0x3A3

/-- The code of the capital I that has a dot. -/
def dottedCapitalI : Nat := 0x130

/-- The code of the small form of a letter, if that is one letter. -/
def lowerCode (n : Nat) : Nat :=
  match lowerRanges.find? (·.has n) with
  | some r => (n + r.distance).toNat
  | none => n

/-- Whether the first letter of a text has a case, after the characters that are passed over. -/
def startsCased (t : Text) : Bool :=
  match t.dropWhile fun x ↦ inRanges passedRanges x.code with
  | [] => false
  | x :: _ => inRanges casedRanges x.code

/-- The small form of what follows a text, which is given backwards. A sigma at the end of a word
has a form of its own, and the small form of the dotted I is an I with a dot. -/
def lowerAfter (before : Text) : Text → Text
  | [] => []
  | x :: rest =>
    let small : Text :=
      if x.code = capitalSigma then
        if startsCased before && !startsCased rest then [.char '\u03c2'] else [.char '\u03c3']
      else if x.code = dottedCapitalI then [.char 'i', .char '\u0307']
      else [.ofCode (lowerCode x.code)]
    small ++ lowerAfter (x :: before) rest

/-- A text in small letters. -/
def lower (t : Text) : Text := lowerAfter [] t

end EntityGraph.Text
