/-! Days of the proleptic Gregorian calendar. A day is counted from the first of January
1970. The year of a day is found from the mean length of a year, an estimate that is at
most one too large or too small; `yearOfDay_spec` says that the corrected year is right. -/

namespace Accessors.Calendar

/-- The count of 1970-01-01 when days are counted from the first of January of year 1. -/
def epochDay : Int := 719162

def isLeap (year : Int) : Bool :=
  decide (year % 4 = 0 ∧ (year % 100 ≠ 0 ∨ year % 400 = 0))

/-- Days from the start of year 1 to the start of `year`. -/
def daysBeforeYear (year : Int) : Int :=
  365 * (year - 1) + (year - 1) / 4 - (year - 1) / 100 + (year - 1) / 400

def daysInYear (year : Int) : Int :=
  if isLeap year then 366 else 365

/-- The lengths of the twelve months. -/
def monthLengths (leap : Bool) : List Nat :=
  [31, if leap then 29 else 28, 31, 30, 31, 30, 31, 31, 30, 31, 30, 31]

/-- The length of a month counted from 0. -/
def daysInMonth (year : Int) (month : Nat) : Nat :=
  (monthLengths (isLeap year)).getD month 0

/-- Days from the start of the year to the start of a month counted from 0. -/
def daysBeforeMonth (year : Int) (month : Nat) : Nat :=
  ((monthLengths (isLeap year)).take month).foldl (· + ·) 0

/-- The day of a year, a month counted from 0 and a day of the month counted from 1. -/
def dayOf (year : Int) (month day : Nat) : Int :=
  daysBeforeYear year + daysBeforeMonth year month + day - 1 - epochDay

def yearOfDay (day : Int) : Int :=
  let count := day + epochDay
  let guess := 400 * count / 146097 + 1
  if count < daysBeforeYear guess then guess - 1
  else if daysBeforeYear (guess + 1) ≤ count then guess + 1
  else guess

/-- The month that holds the `rest`-th day, counted from 0, and the day in it. -/
def splitMonths : List Nat → Nat → Nat × Nat
  | [], rest => (0, rest)
  | length :: lengths, rest =>
    if rest < length then (0, rest)
    else
      let later := splitMonths lengths (rest - length)
      (later.1 + 1, later.2)

/-- Year, month counted from 0 and day of the month counted from 1. -/
def civil (day : Int) : Int × Nat × Nat :=
  let year := yearOfDay day
  let parts := splitMonths (monthLengths (isLeap year))
    (day + epochDay - daysBeforeYear year).toNat
  (year, parts.1, parts.2 + 1)

/-- Days since the last Sunday. -/
def weekday (day : Int) : Nat :=
  ((day + 4) % 7).toNat

theorem daysBeforeYear_succ (year : Int) :
    daysBeforeYear (year + 1) = daysBeforeYear year + daysInYear year := by
  unfold daysBeforeYear daysInYear isLeap
  split <;> rename_i h <;> simp only [decide_eq_true_eq] at h <;> omega

theorem yearOfDay_spec (day : Int) :
    daysBeforeYear (yearOfDay day) ≤ day + epochDay ∧
      day + epochDay < daysBeforeYear (yearOfDay day + 1) := by
  unfold yearOfDay
  dsimp only
  split
  · unfold daysBeforeYear at *
    omega
  · split <;> unfold daysBeforeYear at * <;> omega

end Accessors.Calendar
