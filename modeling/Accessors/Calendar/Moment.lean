import Accessors.Calendar.Day
import Accessors.Calendar.Reckoning

/-! Moments: a day, a second of that day and nanoseconds. The nanoseconds may run through
two seconds; the later one is a leap second. `Moment.ofParts` is the way from the seven parts
of a date back to a moment: parts out of their range carry into the next larger one, in
64-bit arithmetic, and years outside the calendar are refused. All steps but two are
guarded; of these two, one always fits, and the other takes one from the day. -/

namespace Accessors.Calendar
open Number

/-- The first of January of the year -262143. -/
def firstDay : Int := -96465292

/-- The last of December of the year 262142. -/
def lastDay : Int := 95026236

structure Moment where
  day : Int
  second : Nat
  nano : Nat
  day_range : firstDay ≤ day ∧ day ≤ lastDay
  second_lt : second < 86400
  nano_lt : nano < 2000000000
deriving DecidableEq

def Moment.of? (day : Int) (second nano : Nat) : Option Moment :=
  if h : (firstDay ≤ day ∧ day ≤ lastDay) ∧ second < 86400 ∧ nano < 2000000000 then
    some ⟨day, second, nano, h.1, h.2.1, h.2.2⟩
  else
    none

def Moment.epoch : Moment := ⟨0, 0, 0, by decide, by decide, by decide⟩

/-- The moment a number of milliseconds after the epoch. -/
def Moment.ofMillis? (millis : Int) : Option Moment :=
  Moment.of? (millis / 86400000) (millis % 86400000 / 1000).toNat
    (millis % 1000 * 1000000).toNat

/-- Milliseconds since the epoch, the rest of the nanoseconds dropped. -/
def Moment.millis (m : Moment) : Int :=
  (m.day * 86400 + m.second) * 1000 + (m.nano / 1000000 : Nat)

inductive Part where
  | year
  | month
  | day
  | hour
  | minute
  | second
  | millisecond
deriving DecidableEq

/-- One value for each part of a date, the month counted from 0. -/
structure Parts (α : Type) where
  year : α
  month : α
  day : α
  hour : α
  minute : α
  second : α
  millisecond : α

def Parts.get {α : Type} (p : Parts α) : Part → α
  | .year => p.year
  | .month => p.month
  | .day => p.day
  | .hour => p.hour
  | .minute => p.minute
  | .second => p.second
  | .millisecond => p.millisecond

def Parts.set {α : Type} (p : Parts α) (part : Part) (a : α) : Parts α :=
  match part with
  | .year => { p with year := a }
  | .month => { p with month := a }
  | .day => { p with day := a }
  | .hour => { p with hour := a }
  | .minute => { p with minute := a }
  | .second => { p with second := a }
  | .millisecond => { p with millisecond := a }

def Parts.map {α β : Type} (f : α → β) (p : Parts α) : Parts β :=
  ⟨f p.year, f p.month, f p.day, f p.hour, f p.minute, f p.second, f p.millisecond⟩

def Parts.toList {α : Type} (p : Parts α) : List α :=
  [p.year, p.month, p.day, p.hour, p.minute, p.second, p.millisecond]

/-- The parts in order, the missing ones taken from `p`. -/
def Parts.override {α : Type} (p : Parts α) (values : List α) : Parts α :=
  ⟨values.getD 0 p.year, values.getD 1 p.month, values.getD 2 p.day, values.getD 3 p.hour,
    values.getD 4 p.minute, values.getD 5 p.second, values.getD 6 p.millisecond⟩

theorem Parts.get_set {α : Type} (p : Parts α) (part other : Part) (a : α) :
    (p.set part a).get other = if other = part then a else p.get other := by
  cases part <;> cases other <;> rfl

/-- The parts of a moment. A leap second shows as a thousand milliseconds more. -/
def Moment.parts (m : Moment) : Parts Int :=
  let date := civil m.day
  ⟨date.1, date.2.1, date.2.2, (m.second / 3600 : Nat), (m.second / 60 % 60 : Nat),
    (m.second % 60 : Nat), (m.nano / 1000000 : Nat)⟩

def fitsInt32 (n : Int) : Bool :=
  decide (-2147483648 ≤ n ∧ n ≤ 2147483647)

/-- The first day of a month counted from 1, when the calendar holds it. -/
def firstOfMonth? (year month : Int) : Option Int :=
  let day := dayOf year (month - 1).toNat 1
  if firstDay ≤ day ∧ day ≤ lastDay then some day else none

namespace Parts
open Reckoning

/-- The first day of the month that year and month stand for. The calendar takes years as
integers of 32 bits. -/
def firstOfMonth (p : Parts Int) : Reckoning Int := do
  let years ← guarded (p.year * 12)
  let months ← guarded (years + p.month)
  let year ← ofOption (if fitsInt32 (months / 12) then some (months / 12) else none)
  let month ← unguarded (months % 12 + 1)
  ofOption (firstOfMonth? year month)

/-- Milliseconds from the first day of the month to the parts. -/
def elapsed (p : Parts Int) : Reckoning Int := do
  let before ← unguarded (p.day - 1)
  let days ← guarded (before * 86400000)
  let hours ← guarded (p.hour * 3600000)
  let daysHours ← guarded (days + hours)
  let minutes ← guarded (p.minute * 60000)
  let daysMinutes ← guarded (daysHours + minutes)
  let seconds ← guarded (p.second * 1000)
  let daysSeconds ← guarded (daysMinutes + seconds)
  guarded (daysSeconds + p.millisecond)

end Parts

def Moment.ofParts (p : Parts Int) : Reckoning Moment := do
  let first ← p.firstOfMonth
  let elapsed ← p.elapsed
  .ofOption (Moment.ofMillis? (first * 86400000 + elapsed))

def Moment.weekday (m : Moment) : Nat :=
  Calendar.weekday m.day

/-- The moment `seconds` earlier, the nanoseconds left alone. -/
def Moment.before? (m : Moment) (seconds : Int) : Option Moment :=
  let total := m.day * 86400 + m.second - seconds
  Moment.of? (total / 86400) (total % 86400).toNat m.nano

theorem Moment.ofMillis?_millis {n : Int} {m : Moment} (h : Moment.ofMillis? n = some m) :
    m.millis = n := by
  unfold Moment.ofMillis? Moment.of? at h
  split at h
  · cases h
    simp only [Moment.millis]
    omega
  · simp at h

end Accessors.Calendar
