import Accessors.Number.Rounding

/-! Doubles taken apart into sign, significand and power of two, and the operations
that are exact on those parts: dropping a fraction, rounding down and the remainder
of a division. A finite double is `± significand * 2 ^ exponent`; everything here is
integer arithmetic on the two numbers. -/

namespace Accessors.Number

inductive Binary where
  | nan
  | infinite (negative : Bool)
  | finite (negative : Bool) (significand : Nat) (exponent : Int)
deriving DecidableEq

def binary (x : Float) : Binary :=
  let bits := x.toBits.toNat
  let negative := decide (leastNegative ≤ bits)
  let biased : Nat := bits / binade % 2048
  let fraction : Nat := bits % binade
  if biased = 2047 then
    if fraction = 0 then .infinite negative else .nan
  else if biased = 0 then
    .finite negative fraction (-1074)
  else
    .finite negative (binade + fraction) ((biased : Int) - 1075)

def negative (x : Float) : Bool :=
  match binary x with
  | .nan => false
  | .infinite negative => negative
  | .finite negative _ _ => negative

def isFinite (x : Float) : Bool :=
  match binary x with
  | .finite .. => true
  | _ => false

/-- The integer part of `significand * 2 ^ exponent`. -/
def wholePart (significand : Nat) (exponent : Int) : Nat :=
  significand * power 2 exponent / power 2 (-exponent)

def hasFraction (significand : Nat) (exponent : Int) : Bool :=
  significand % power 2 (-exponent) != 0

def signed (negative : Bool) (n : Nat) : Int :=
  if negative then -n else n

/-- The integer toward zero, for a finite number. -/
def truncated? (x : Float) : Option Int :=
  match binary x with
  | .finite negative significand exponent =>
    some (signed negative (wholePart significand exponent))
  | _ => none

/-- Whether the number is an integer; infinities are not. -/
def isWhole (x : Float) : Bool :=
  match binary x with
  | .finite _ significand exponent => !hasFraction significand exponent
  | _ => false

/-- The integer `2 ^ 53 - 1`. Up to it no two integers share a double. -/
def greatestSafe : Nat := 9007199254740991

/-- A number that is an integer up to the greatest safe one. -/
def safeInteger? (x : Float) : Option Int :=
  match binary x with
  | .finite negative significand exponent =>
    let whole := wholePart significand exponent
    if !hasFraction significand exponent && decide (whole ≤ greatestSafe) then
      some (signed negative whole)
    else none
  | _ => none

/-- Drops the fraction and keeps the sign, also of zero. -/
def truncate (x : Float) : Float :=
  match binary x with
  | .finite negative significand exponent =>
    if hasFraction significand exponent then ofSigned negative (wholePart significand exponent)
    else x
  | _ => x

/-- The greatest integer that is not above the number. -/
def floor (x : Float) : Float :=
  match binary x with
  | .finite negative significand exponent =>
    if hasFraction significand exponent then
      ofSigned negative (wholePart significand exponent + if negative then 1 else 0)
    else x
  | _ => x

/-- The remainder of the division rounded toward zero. It has the sign of the dividend
and is exact: both numbers are multiples of the smaller of their powers of two. -/
def remainder (x y : Float) : Float :=
  match binary x, binary y with
  | .finite negative m p, .finite _ n q =>
    if n = 0 then 0 / 0
    else if m = 0 then x
    else
      let unit := min p q
      ofParts negative ((m * power 2 (p - unit)) % (n * power 2 (q - unit))) unit
  | .finite .., .infinite _ => x
  | _, _ => 0 / 0

/-- The integer `-2 ^ 63`. -/
def leastInt64 : Int := -9223372036854775808

/-- The integer `2 ^ 63 - 1`. -/
def greatestInt64 : Int := 9223372036854775807

def fitsInt64 (n : Int) : Bool :=
  decide (leastInt64 ≤ n ∧ n ≤ greatestInt64)

/-- The nearest 64-bit integer toward zero; numbers out of range go to the ends. -/
def toInt64 (x : Float) : Int :=
  match binary x with
  | .nan => 0
  | .infinite negative => if negative then leastInt64 else greatestInt64
  | .finite negative significand exponent =>
    max leastInt64 (min greatestInt64 (signed negative (wholePart significand exponent)))

theorem toInt64_fits (x : Float) : fitsInt64 (toInt64 x) = true := by
  unfold toInt64 fitsInt64
  split
  · decide
  · split <;> decide
  · simp only [leastInt64, greatestInt64]
    apply decide_eq_true
    omega

end Accessors.Number
