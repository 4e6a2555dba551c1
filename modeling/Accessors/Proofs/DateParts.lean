import Accessors.Proofs.CivilCalendar
import Accessors.Proofs.ExactIntegers
import Accessors.Proofs.Operations

/-! The parts of a date against its count of milliseconds. A moment is taken apart into year,
month, day and time, and rebuilt from them by month arithmetic and an offset; the other way is
through milliseconds since the epoch. Main statements: both ways end at the same moment
(`Moment.ofParts_parts`), and parts that make up a whole millisecond of the calendar are the
parts of the moment that is rebuilt from them (`Moment.ofParts_of_valid`,
`Moment.parts_ofValid`). -/

namespace Accessors
namespace Calendar
open Number

def Part.origin : Part → Int
  | .month => 1
  | _ => 0

def Part.name : Part → String
  | .year => "year"
  | .month => "month"
  | .day => "date"
  | .hour => "hour"
  | .minute => "minute"
  | .second => "second"
  | .millisecond => "millisecond"

namespace Parts

def dayNumber (p : Parts Int) : Int :=
  dayOf p.year p.month.toNat p.day.toNat

def millis (p : Parts Int) : Int :=
  (p.dayNumber * 86400 + (p.hour * 3600 + p.minute * 60 + p.second)) * 1000 + p.millisecond

/-- Parts that a moment can have: a date of the calendar and a time of the day. The milliseconds
of a leap second run on past the thousandth. -/
structure OnCalendar (p : Parts Int) : Prop where
  month : 0 ≤ p.month
  day : 0 ≤ p.day
  date : IsDate p.year p.month.toNat p.day.toNat
  range : firstDay ≤ p.dayNumber ∧ p.dayNumber ≤ lastDay
  hour : 0 ≤ p.hour ∧ p.hour < 24
  minute : 0 ≤ p.minute ∧ p.minute < 60
  second : 0 ≤ p.second ∧ p.second < 60
  millisecond : 0 ≤ p.millisecond ∧ p.millisecond < 2000

/-- Parts of a whole millisecond outside leap seconds: the month from 0 to 11, the day one of that
month, and so on. -/
structure Valid (p : Parts Int) : Prop extends p.OnCalendar where
  ordinary : p.millisecond < 1000

end Parts

def Moment.IsWhole (m : Moment) : Prop :=
  m.nano < 1000000000 ∧ m.nano % 1000000 = 0

namespace IsDate
variable {year : Int} {month day : Nat}

theorem day_le_31 (date : IsDate year month day) : day ≤ 31 := by
  have le := date.day_le
  have lt := date.month_lt
  have bound : ∀ leap : Bool, ∀ month : Fin 12, (monthLengths leap).getD month.val 0 ≤ 31 := by
    decide
  exact Nat.le_trans le (bound (isLeap year) ⟨month, lt⟩)

theorem first (year : Int) (lt : month < 12) : IsDate year month 1 := by
  have bound : ∀ leap : Bool, ∀ month : Fin 12, 1 ≤ (monthLengths leap).getD month.val 0 := by
    decide
  exact ⟨lt, Nat.le_refl 1, bound (isLeap year) ⟨month, lt⟩⟩

theorem year_range (date : IsDate year month day)
    (range : firstDay ≤ dayOf year month day ∧ dayOf year month day ≤ lastDay) :
    -262143 ≤ year ∧ year ≤ 262142 := by
  obtain ⟨first, last⟩ := dayOf_in_year date
  have start : daysBeforeYear (-262143) = firstDay + epochDay := by decide
  have finish : daysBeforeYear 262143 = lastDay + epochDay + 1 := by decide
  constructor
  · refine Int.not_lt.mp fun early => ?_
    have := daysBeforeYear_le (show year + 1 ≤ -262143 by omega)
    omega
  · refine Int.not_lt.mp fun late => ?_
    have := daysBeforeYear_le (show 262143 ≤ year by omega)
    omega

end IsDate

namespace Parts
variable {p : Parts Int}

theorem OnCalendar.year_range (h : p.OnCalendar) : -262143 ≤ p.year ∧ p.year ≤ 262142 :=
  h.date.year_range h.range

theorem OnCalendar.firstOfMonth? (h : p.OnCalendar) :
    firstOfMonth? p.year (p.month + 1) = some (p.dayNumber - (p.day - 1)) := by
  have year := h.year_range
  have pos := h.date.day_pos
  have day := h.day
  have range := h.range
  have first : dayOf p.year p.month.toNat 1 = p.dayNumber - (p.day - 1) := by
    unfold dayNumber dayOf
    omega
  have start : firstDay ≤ dayOf p.year p.month.toNat 1 := by
    have least := daysBeforeYear_le year.1
    have opening : daysBeforeYear (-262143) = firstDay + epochDay := by decide
    unfold dayOf
    omega
  unfold Calendar.firstOfMonth?
  dsimp only
  rw [Int.add_sub_cancel, if_pos ⟨start, by omega⟩, first]

theorem guarded_result {n : Int} (fits : -9223372036854775808 ≤ n ∧ n ≤ 9223372036854775807) :
    (Reckoning.guarded n).result = .ok n :=
  if_pos (decide_eq_true fits)

theorem unguarded_result {n : Int} (fits : -9223372036854775808 ≤ n ∧ n ≤ 9223372036854775807) :
    (Reckoning.unguarded n).result = .ok n :=
  if_pos (decide_eq_true fits)

theorem OnCalendar.firstOfMonth (h : p.OnCalendar) :
    p.firstOfMonth.result = .ok (p.dayNumber - (p.day - 1)) := by
  have year := h.year_range
  have month := h.month
  have lt := h.date.month_lt
  have years : (p.year * 12 + p.month) / 12 = p.year := by omega
  have months : (p.year * 12 + p.month) % 12 = p.month := by omega
  have narrow : fitsInt32 p.year = true := decide_eq_true (by omega)
  unfold Parts.firstOfMonth
  simp (disch := omega) only [Reckoning.bind_result, guarded_result, unguarded_result, years,
    months, narrow, Except.bind, Reckoning.ofOption, orRefused, if_true, h.firstOfMonth?]

theorem OnCalendar.elapsed (h : p.OnCalendar) :
    p.elapsed.result = .ok ((p.day - 1) * 86400000 + p.hour * 3600000 + p.minute * 60000 +
      p.second * 1000 + p.millisecond) := by
  have most := h.date.day_le_31
  have day := h.day
  have hour := h.hour
  have minute := h.minute
  have second := h.second
  have millisecond := h.millisecond
  unfold Parts.elapsed
  simp (disch := omega) only [Reckoning.bind_result, guarded_result, unguarded_result, Except.bind]

theorem OnCalendar.ofParts (h : p.OnCalendar) :
    (Moment.ofParts p).result = orRefused (Moment.ofMillis? p.millis) := by
  unfold Moment.ofParts
  rw [Reckoning.bind_result, h.firstOfMonth]
  show (p.elapsed >>= _).result = _
  rw [Reckoning.bind_result, h.elapsed]
  show orRefused _ = _
  congr 2
  unfold millis
  omega

end Parts

namespace Moment

theorem parts_onCalendar (m : Moment) : m.parts.OnCalendar := by
  have date := isDate_civil m.day
  have counted : m.parts.dayNumber = m.day := dayOf_civil m.day
  have second_lt := m.second_lt
  have nano_lt := m.nano_lt
  refine ⟨?_, ?_, ?_, ?_, ?_, ?_, ?_, ?_⟩
  · exact Int.natCast_nonneg _
  · exact Int.natCast_nonneg _
  · exact date
  · rw [counted]
    exact m.day_range
  all_goals
    unfold parts
    dsimp only
    omega

theorem millis_parts (m : Moment) : m.parts.millis = m.millis := by
  have counted : m.parts.dayNumber = m.day := dayOf_civil m.day
  unfold Parts.millis
  rw [counted]
  unfold parts millis
  dsimp only
  omega

theorem ofParts_parts (m : Moment) :
    (ofParts m.parts).result = orRefused (ofMillis? m.millis) := by
  rw [m.parts_onCalendar.ofParts, millis_parts]

theorem IsWhole.ofMillis?_millis {m : Moment} (whole : m.IsWhole) :
    ofMillis? m.millis = some m := by
  obtain ⟨day, second, nano, day_range, second_lt, nano_lt⟩ := m
  obtain ⟨ordinary, round⟩ := whole
  dsimp only at ordinary round
  have days : ((day * 86400 + second) * 1000 + (nano / 1000000 : Nat)) / 86400000 = day := by omega
  have seconds : (((day * 86400 + second) * 1000 + (nano / 1000000 : Nat)) % 86400000 /
      1000).toNat = second := by omega
  have nanos : (((day * 86400 + second) * 1000 + (nano / 1000000 : Nat)) % 1000 *
      1000000).toNat = nano := by omega
  unfold ofMillis? of? millis
  dsimp only
  simp only [days, seconds, nanos]
  rw [dif_pos ⟨day_range, second_lt, nano_lt⟩]

def ofValid (p : Parts Int) (h : p.Valid) : Moment where
  day := p.dayNumber
  second := (p.hour * 3600 + p.minute * 60 + p.second).toNat
  nano := (p.millisecond * 1000000).toNat
  day_range := h.range
  second_lt := by
    have hour := h.hour
    have minute := h.minute
    have second := h.second
    omega
  nano_lt := by
    have millisecond := h.millisecond
    omega

section
variable {p : Parts Int} (h : p.Valid)
include h

theorem parts_ofValid : (ofValid p h).parts = p := by
  have date : civil p.dayNumber = (p.year, p.month.toNat, p.day.toNat) := civil_dayOf h.date
  have month := h.month
  have day := h.day
  have hour := h.hour
  have minute := h.minute
  have second := h.second
  have millisecond := h.millisecond
  unfold parts ofValid
  obtain ⟨y, mo, d, hh, mi, s, ms⟩ := p
  dsimp only at *
  rw [date]
  simp only [Parts.mk.injEq, true_and]
  omega

theorem isWhole_ofValid : (ofValid p h).IsWhole := by
  have ordinary := h.ordinary
  have millisecond := h.millisecond
  unfold IsWhole ofValid
  dsimp only
  omega

theorem ofParts_of_valid : (ofParts p).result = .ok (ofValid p h) := by
  have made : ofMillis? p.millis = some (ofValid p h) := by
    rw [← (isWhole_ofValid h).ofMillis?_millis, ← millis_parts, parts_ofValid h]
  rw [h.toOnCalendar.ofParts, made]
  rfl

end

end Moment

end Calendar

end Accessors
