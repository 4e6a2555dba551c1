import Accessors.Calendar.Moment
import Accessors.Number.Reading

/-! Reading dates. Three forms are tried in turn: a full stamp with digits of fixed width
and a zone, which is taken off; a local date and time, where fields may be shorter and
blanks may precede them; and a local date. Each form is a chain of scanners that return
what is left of the text. -/

namespace Accessors.Calendar
open Number Text

/-- Between `least` and `most` digits. -/
def scanDigits (least most : Nat) (s : List Char) : Option (Nat × List Char) :=
  let digits := (s.take most).takeWhile isDigit
  if digits.length < least then none
  else some (digitsValue digits, s.drop digits.length)

def scanMark (mark : Char) : List Char → Option (List Char)
  | [] => none
  | c :: rest => if c = mark then some rest else none

/-- The nanoseconds after the point; digits past the ninth are skipped. -/
def scanFraction : List Char → Option (Nat × List Char)
  | '.' :: rest => do
    let (value, left) ← scanDigits 1 9 rest
    let read := rest.length - left.length
    some (value * power 10 (9 - read), left.dropWhile isDigit)
  | s => some (0, s)

/-- The moment of a calendar date and clock time; second 60 is a leap second. -/
def momentOf? (year : Int) (month day hour minute second nano : Nat) : Option Moment :=
  if 1 ≤ month ∧ month ≤ 12 ∧ 1 ≤ day ∧ day ≤ daysInMonth year (month - 1) ∧
      hour < 24 ∧ minute < 60 ∧ second ≤ 60 then
    let within := if second = 60 then 59 else second
    let leap := if second = 60 then 1000000000 else 0
    Moment.of? (dayOf year (month - 1) day) (hour * 3600 + minute * 60 + within) (leap + nano)
  else
    none

/-- The zone of a stamp, in seconds east. -/
def scanZone : List Char → Option (Int × List Char)
  | [] => none
  | c :: rest =>
    if c = 'Z' ∨ c = 'z' then some (0, rest)
    else if c = '+' ∨ c = '-' ∨ c = '−' then do
      let (hours, rest) ← scanDigits 2 2 rest
      let rest ← scanMark ':' rest
      let (minutes, rest) ← scanDigits 2 2 rest
      if minutes < 60 ∧ hours < 24 then
        let seconds : Int := hours * 3600 + minutes * 60
        some (if c = '+' then seconds else -seconds, rest)
      else
        none
    else
      none

/-- A full stamp such as `2020-01-02T03:04:05.678+09:00`. -/
def stamp? (s : List Char) : Option Moment := do
  let (year, s) ← scanDigits 4 4 s
  let (month, s) ← scanDigits 2 2 (← scanMark '-' s)
  let (day, s) ← scanDigits 2 2 (← scanMark '-' s)
  let s ← (scanMark 'T' s).or ((scanMark 't' s).or (scanMark ' ' s))
  let (hour, s) ← scanDigits 2 2 s
  let (minute, s) ← scanDigits 2 2 (← scanMark ':' s)
  let (second, s) ← scanDigits 2 2 (← scanMark ':' s)
  let (nano, s) ← scanFraction s
  let (zone, s) ← scanZone s
  if s = [] then (← momentOf? year month day hour minute second nano).before? zone else none

/-- A field of at most `most` digits after blanks. -/
def scanField (most : Nat) (s : List Char) : Option (Nat × List Char) :=
  scanDigits 1 most (trimLeft s)

/-- A year of up to four digits, or of any length after a sign. -/
def scanYear (s : List Char) : Option (Int × List Char) :=
  match trimLeft s with
  | '-' :: rest => (scanDigits 1 rest.length rest).map fun (n, left) => (-(n : Int), left)
  | '+' :: rest => (scanDigits 1 rest.length rest).map fun (n, left) => ((n : Int), left)
  | rest => (scanDigits 1 4 rest).map fun (n, left) => ((n : Int), left)

def scanDate (s : List Char) : Option ((Int × Nat × Nat) × List Char) := do
  let (year, s) ← scanYear s
  let (month, s) ← scanField 2 (← scanMark '-' s)
  let (day, s) ← scanField 2 (← scanMark '-' s)
  some ((year, month, day), s)

def localTime? (s : List Char) : Option Moment := do
  let ((year, month, day), s) ← scanDate s
  let (hour, s) ← scanField 2 (← scanMark 'T' s)
  let (minute, s) ← scanField 2 (← scanMark ':' s)
  let (second, s) ← scanField 2 (← scanMark ':' s)
  let (nano, s) ← scanFraction s
  if s = [] then momentOf? year month day hour minute second nano else none

def localDate? (s : List Char) : Option Moment := do
  let ((year, month, day), s) ← scanDate s
  if s = [] then momentOf? year month day 0 0 0 0 else none

/-- The date a text stands for, blanks around it ignored. -/
def Moment.read? (text : String) : Option Moment :=
  let s := trim text.toList
  (stamp? s).or ((localTime? s).or (localDate? s))

end Accessors.Calendar
