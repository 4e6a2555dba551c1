import Accessors.Calendar.Moment

/-! Written moments. The date and the time stand on either side of a `T`; years have at
least four digits and, outside 0 to 9999, a sign; a leap second is written as second 60.
The three forms differ in the digits of the fraction. -/

namespace Accessors.Calendar

/-- At least `width` digits. -/
def padded (width n : Nat) : List Char :=
  let digits := Nat.toDigits 10 n
  List.replicate (width - digits.length) '0' ++ digits

def writtenYear (year : Int) : List Char :=
  if 0 ≤ year ∧ year ≤ 9999 then padded 4 year.toNat
  else (if year < 0 then '-' else '+') :: padded 4 year.natAbs

def Moment.writtenDate (m : Moment) : List Char :=
  let date := civil m.day
  writtenYear date.1 ++ '-' :: padded 2 (date.2.1 + 1) ++ '-' :: padded 2 date.2.2

def Moment.writtenTime (m : Moment) : List Char :=
  padded 2 (m.second / 3600) ++ ':' :: padded 2 (m.second / 60 % 60) ++
    ':' :: padded 2 (m.second % 60 + m.nano / 1000000000)

def Moment.writtenSeconds (m : Moment) : List Char :=
  m.writtenDate ++ 'T' :: m.writtenTime

/-- The nanoseconds within the second. -/
def Moment.fraction (m : Moment) : Nat :=
  m.nano % 1000000000

/-- Milliseconds and the mark of universal time. -/
def Moment.display (m : Moment) : String :=
  String.ofList (m.writtenSeconds ++ '.' :: padded 3 (m.fraction / 1000000) ++ ['Z'])

/-- All nine digits of the fraction. -/
def Moment.exact (m : Moment) : String :=
  String.ofList (m.writtenSeconds ++ '.' :: padded 9 m.fraction)

/-- As many groups of three digits as the fraction needs. -/
def Moment.debug (m : Moment) : String :=
  let fraction :=
    if m.fraction = 0 then []
    else if m.fraction % 1000000 = 0 then '.' :: padded 3 (m.fraction / 1000000)
    else if m.fraction % 1000 = 0 then '.' :: padded 6 (m.fraction / 1000)
    else '.' :: padded 9 m.fraction
  String.ofList (m.writtenSeconds ++ fraction)

end Accessors.Calendar
