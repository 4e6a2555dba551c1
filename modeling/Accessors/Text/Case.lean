import Accessors.Text.CaseTable

/-! Full Unicode upper and lower case of text. Upper case may lengthen a text; lower
case depends on context for one letter only: a capital sigma that ends a word
becomes the final form. -/

namespace Accessors.Text

/-- The several characters that are the upper case of one. -/
def expansion? (c : Char) : Option (List Nat) :=
  ((upperExpansions.find? fun entry => c.toNat ≤ entry.1).filter (·.1 = c.toNat)).map (·.2)

def upperChar (c : Char) : List Char :=
  match expansion? c with
  | some image => image.map Char.ofNat
  | none =>
    match mapped? upperRuns c.toNat with
    | some image => [Char.ofNat image]
    | none => [c]

def lowerChar (c : Char) : List Char :=
  if c = 'İ' then ['i', '\u0307']
  else
    match mapped? lowerRuns c.toNat with
    | some image => [Char.ofNat image]
    | none => [c]

def upper (s : List Char) : List Char :=
  s.flatMap upperChar

/-- Whether a cased letter comes first once case-ignorable characters are skipped. -/
def meetsCased (s : List Char) : Bool :=
  match s.dropWhile caseIgnorableRanges.has with
  | [] => false
  | c :: _ => casedRanges.has c

/-- The lower case of `rest`, where `before` is what precedes it, nearest first. -/
def lowerAfter (before : List Char) : List Char → List Char
  | [] => []
  | c :: rest =>
    let image :=
      if c = 'Σ' then
        if meetsCased before && !meetsCased rest then ['ς'] else ['σ']
      else
        lowerChar c
    image ++ lowerAfter (c :: before) rest

def lower (s : List Char) : List Char :=
  lowerAfter [] s

end Accessors.Text
