import Accessors.Number.Binary
import Accessors.Number.Digits
import Accessors.Text.Blank

/-! Reading numbers. A decimal is an optional sign, digits with at most one point and
at least one digit, and optionally an exponent. Coercion of text trims it first and
knows three more forms: the empty text, an unsigned literal in base 16, 8 or 2, and
a signed `Infinity`. -/

namespace Accessors.Number

def nan : Float := 0 / 0

def infinity : Float := infinite false

/-- Splits off a sign: whether it is a minus, and what follows. -/
def takeSign : List Char → Bool × List Char
  | '-' :: rest => (true, rest)
  | '+' :: rest => (false, rest)
  | s => (false, s)

/-- From here on an exponent takes no more digits. -/
def exponentLimit : Nat := 65536

/-- The value of an exponent's digits; those that follow once the limit is reached are
dropped, so that a longer exponent need not be a greater one. -/
def exponentValue (digits : List Char) : Nat :=
  digits.foldl (fun n c => if n < exponentLimit then 10 * n + digitOf c else n) 0

/-- The exponent that ends a decimal: nothing, or `e`, a sign and digits. -/
def exponent? : List Char → Option Int
  | [] => some 0
  | c :: rest =>
    if c = 'e' ∨ c = 'E' then
      let (negative, digits) := takeSign rest
      if digits ≠ [] ∧ digits.all isDigit then some (signed negative (exponentValue digits))
      else none
    else
      none

/-- The double nearest to `± significand * 10 ^ exponent`. Powers far out of range are not
formed: since `8 ^ k ≤ 10 ^ k`, the size in bits tells that the decimal is below every
positive double, and a positive integer with so many zeros is above all of them. -/
def nearest (negative : Bool) (significand : Nat) (exponent : Int) : Float :=
  if significand = 0 ∨ significand.log2 + 3 * exponent < -1100 then rounded negative 0 1
  else if 330 < exponent then infinite negative
  else rounded negative (significand * power 10 exponent) (power 10 (-exponent))

def decimal? (s : List Char) : Option Float :=
  let (negative, body) := takeSign s
  let whole := body.takeWhile isDigit
  let afterWhole := body.dropWhile isDigit
  let (fraction, afterFraction) :=
    match afterWhole with
    | '.' :: rest => (rest.takeWhile isDigit, rest.dropWhile isDigit)
    | _ => ([], afterWhole)
  if whole = [] ∧ fraction = [] then
    none
  else
    (exponent? afterFraction).map fun exponent =>
      nearest negative (digitsValue (whole ++ fraction)) (exponent - fraction.length)

/-- The base that a literal starts with, and its digits. -/
def prefixed? : List Char → Option (Nat × List Char)
  | '0' :: mark :: digits =>
    if mark = 'x' ∨ mark = 'X' then some (16, digits)
    else if mark = 'o' ∨ mark = 'O' then some (8, digits)
    else if mark = 'b' ∨ mark = 'B' then some (2, digits)
    else none
  | _ => none

def digitIn? (base : Nat) (c : Char) : Option Nat :=
  let value :=
    if isDigit c then digitOf c
    else if 'a' ≤ c ∧ c ≤ 'z' then c.toNat - 'a'.toNat + 10
    else if 'A' ≤ c ∧ c ≤ 'Z' then c.toNat - 'A'.toNat + 10
    else base
  if value < base then some value else none

/-- The least power of two above every double: `2 ^ 1024`. -/
def overflow : Nat := power 2 1024

/-- One digit more, the sum rounded to a significand. What has overflowed stays so. -/
def appendDigit (base value digit : Nat) : Nat :=
  if value < overflow then roundedInteger (value * base + digit) else value

/-- The value of digits that are added one by one. -/
def literalValue (base : Nat) (digits : List Char) : Option Nat :=
  digits.foldlM (fun value c => (digitIn? base c).map (appendDigit base value)) 0

def ofTrimmed (s : List Char) : Float :=
  if s = [] then 0
  else
    match prefixed? s with
    | some (base, digits) =>
      if digits = [] then nan else ((literalValue base digits).map ofNat).getD nan
    | none =>
      if s = "Infinity".toList ∨ s = "+Infinity".toList then infinity
      else if s = "-Infinity".toList then infinite true
      else (decimal? s).getD nan

/-- Numeric coercion of a text. What is no number is NaN. -/
def ofText (s : String) : Float :=
  ofTrimmed (Text.trim s.toList)

/-- A whole text that is a signed integer of 64 bits. -/
def int64? (s : List Char) : Option Int :=
  let (negative, digits) := takeSign s
  if digits ≠ [] ∧ digits.all isDigit then
    let n := signed negative (digitsValue digits)
    if fitsInt64 n then some n else none
  else
    none

/-- The integer that a text starts with, after blanks and a sign; NaN without digits. -/
def leadingInteger (s : String) : Float :=
  let (negative, rest) := takeSign (Text.trimLeft s.toList)
  let digits := rest.takeWhile isDigit
  if digits = [] then nan else nearest negative (digitsValue digits) 0

/-- No digit is blank. -/
theorem isBlank_of_isDigit {c : Char} (digit : isDigit c = true) : Text.isBlank c = false := by
  obtain ⟨least, greatest⟩ : '0' ≤ c ∧ c ≤ '9' := of_decide_eq_true digit
  rw [Char.le_def, UInt32.le_iff_toNat_le] at least greatest
  change 48 ≤ c.toNat at least
  change c.toNat ≤ 57 at greatest
  unfold Text.isBlank Text.blankRanges
  rw [Text.Ranges.has_of_lt (by omega), Text.Ranges.has_of_lt (by omega), Text.Ranges.has_cons,
    if_pos (by omega)]
  exact decide_eq_false (by omega)

theorem takeSign_plus (s : List Char) : takeSign ('+' :: s) = (false, s) := rfl

theorem takeSign_minus (s : List Char) : takeSign ('-' :: s) = (true, s) := rfl

end Accessors.Number
