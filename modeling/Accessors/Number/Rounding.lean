/-! Rounding. Whatever the library computes exactly, as a quotient of two integers,
becomes a double here: the nearest one, a tie going to the even significand. The
significand is a rounded quotient in units of the last place. -/

namespace Accessors.Number

/-- The integer nearest to a quotient; a tie goes to the even one. -/
def roundedQuotient (numerator denominator : Nat) : Nat :=
  let q := numerator / denominator
  let rest := 2 * (numerator % denominator)
  if rest < denominator ∨ (rest = denominator ∧ q % 2 = 0) then q else q + 1

/-- A power, which is 1 for a negative exponent. -/
def power (base : Nat) (exponent : Int) : Nat :=
  Nat.pow base exponent.toNat

/-- The exponent of the greatest power of a base that is not above a positive quotient,
when `guess` is that exponent or one more. -/
def leadingPower (base : Nat) (guess : Int) (numerator denominator : Nat) : Int :=
  if denominator * power base guess ≤ numerator * power base (-guess) then guess
  else guess - 1

/-- The power of two of the last place of the double nearest to a positive quotient. -/
def lastPlace (numerator denominator : Nat) : Int :=
  let guess : Int := numerator.log2 - denominator.log2
  max (-1074) (leadingPower 2 guess numerator denominator - 52)

/-- The significands between two powers of two: `2 ^ 52` of them. -/
def binade : Nat := 4503599627370496

def infinityBits : Nat := 2047 * binade

/-- The bits of the double nearest to a quotient: its significand, to which each step of
the exponent adds a binade. A significand that is rounded up to two binades thereby
carries into the exponent, and what lies beyond every double becomes infinity. -/
def roundedBits (numerator denominator : Nat) : Nat :=
  if numerator = 0 then 0
  else
    let place := lastPlace numerator denominator
    let significand :=
      roundedQuotient (numerator * power 2 (-place)) (denominator * power 2 place)
    min infinityBits ((place + 1074).toNat * binade + significand)

/-- The least bits of a negative double: `2 ^ 63`. -/
def leastNegative : Nat := 9223372036854775808

def signBit (negative : Bool) : Nat :=
  if negative then leastNegative else 0

/-- The double nearest to `± numerator / denominator`, which keeps the sign of a zero. -/
def rounded (negative : Bool) (numerator denominator : Nat) : Float :=
  Float.ofBits (.ofNat (signBit negative + roundedBits numerator denominator))

def infinite (negative : Bool) : Float :=
  Float.ofBits (.ofNat (signBit negative + infinityBits))

/-- The double nearest to an integer with a sign. -/
def ofSigned (negative : Bool) (n : Nat) : Float :=
  rounded negative n 1

def ofNat (n : Nat) : Float :=
  ofSigned false n

def ofInt (n : Int) : Float :=
  ofSigned (decide (n < 0)) n.natAbs

/-- The double nearest to `± n * 2 ^ exponent`. -/
def ofParts (negative : Bool) (n : Nat) (exponent : Int) : Float :=
  rounded negative (n * power 2 exponent) (power 2 (-exponent))

/-- The integer nearest to `n` among those that fit into the significand of a double. -/
def roundedInteger (n : Nat) : Nat :=
  if n < 2 * binade then n
  else
    let unit := power 2 (n.log2 - 52)
    roundedQuotient n unit * unit

theorem power_pos {base : Nat} (h : 0 < base) (exponent : Int) : 0 < power base exponent :=
  Nat.pow_pos h

/-- An integer is its own nearest one. -/
theorem roundedQuotient_mul (n d : Nat) (h : 0 < d) : roundedQuotient (d * n) d = n := by
  simp [roundedQuotient, Nat.mul_div_cancel_left n h, h]

theorem roundedBits_le (n d : Nat) : roundedBits n d ≤ infinityBits := by
  unfold roundedBits
  split
  · exact Nat.zero_le _
  · exact Nat.min_le_left _ _

theorem roundedInteger_eq_self {n : Nat} (h : n < 2 * binade) : roundedInteger n = n :=
  if_pos h

end Accessors.Number
