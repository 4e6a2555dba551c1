import Accessors.Number.Binary
import Accessors.Number.Decimal

/-! Texts of numbers. A notation says between which powers of ten a decimal is written
out in positions, whether whole numbers carry a fraction mark, whether a positive
exponent has a sign and which of two equally near decimals stands for the number; the
three notations in use differ in nothing else. -/

namespace Accessors.Number

structure Notation where
  least : Int
  greatest : Int
  wholeMark : Bool
  plus : Bool
  tie : Tie

def digitsOf (n : Nat) : List Char :=
  Nat.toDigits 10 n

def zeros (n : Int) : List Char :=
  List.replicate n.toNat '0'

/-- Digits with the point after the first `point` of them, zeros filled in. -/
def positional (digits : List Char) (point : Int) (wholeMark : Bool) : List Char :=
  if point ≤ 0 then
    '0' :: '.' :: zeros (-point) ++ digits
  else if digits.length ≤ point then
    digits ++ zeros (point - digits.length) ++ if wholeMark then ['.', '0'] else []
  else
    digits.take point.toNat ++ '.' :: digits.drop point.toNat

def exponential (digits : List Char) (exponent : Int) (plus : Bool) : List Char :=
  let significand :=
    match digits with
    | [] => ['0']
    | [d] => [d]
    | d :: rest => d :: '.' :: rest
  let sign := if exponent < 0 then ['-'] else if plus then ['+'] else []
  significand ++ 'e' :: sign ++ digitsOf exponent.natAbs

def Notation.write (form : Notation) (significand : Nat) (exponent : Int) : List Char :=
  let d := shortest form.tie significand exponent
  let digits := digitsOf d.digits
  let exponent := digits.length + d.exponent - 1
  if form.least ≤ exponent ∧ exponent ≤ form.greatest then
    positional digits (exponent + 1) form.wholeMark
  else
    exponential digits exponent form.plus

def withSign (negative : Bool) (s : List Char) : List Char :=
  if negative then '-' :: s else s

/-- Displayed numbers are written out from a millionth up to twenty-one digits. -/
def displayNotation : Notation := ⟨-6, 20, false, true, .up⟩

/-- Inspected numbers always show that they are not integers by kind. -/
def debugNotation : Notation := ⟨-4, 15, true, false, .up⟩

def jsonNotation : Notation := ⟨-5, 15, true, true, .even⟩

/-- Whole numbers of at most twenty-one digits are displayed exactly, digit by digit;
zero has no sign. -/
def display (x : Float) : String :=
  String.ofList <|
    match binary x with
    | .nan => "NaN".toList
    | .infinite negative => withSign negative "Infinity".toList
    | .finite negative m e =>
      if m = 0 then ['0']
      else if !hasFraction m e && decide (wholePart m e < power 10 21) then
        withSign negative (digitsOf (wholePart m e))
      else
        withSign negative (displayNotation.write m e)

def debug (x : Float) : String :=
  String.ofList <|
    match binary x with
    | .nan => "NaN".toList
    | .infinite negative => withSign negative "inf".toList
    | .finite negative m e =>
      withSign negative (if m = 0 then "0.0".toList else debugNotation.write m e)

/-- An integer digit by digit. -/
def integer (n : Int) : String :=
  String.ofList (withSign (decide (n < 0)) (digitsOf n.natAbs))

/-- Numbers that are not integers by kind; one that is not finite has no form. -/
def json? (x : Float) : Option String :=
  match binary x with
  | .finite negative m e =>
    some (String.ofList (withSign negative (if m = 0 then "0.0".toList else jsonNotation.write m e)))
  | _ => none

/-- A fixed number of decimal places of the exact value. The sign is kept even when
nothing but zeros is left. -/
def fixed (places : Nat) (x : Float) : String :=
  String.ofList <|
    match binary x with
    | .nan => "NaN".toList
    | .infinite negative => withSign negative "inf".toList
    | .finite negative m e =>
      let n := roundedQuotient (m * power 2 e * power 10 places) (power 2 (-e))
      let digits := digitsOf n
      let padded := List.replicate (places + 1 - digits.length) '0' ++ digits
      let point := padded.length - places
      withSign negative
        (padded.take point ++ if places = 0 then [] else '.' :: padded.drop point)

end Accessors.Number
