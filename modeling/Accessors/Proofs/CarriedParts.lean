import Accessors.Proofs.DateProperties
import Accessors.Proofs.GuardedSteps
import Mathlib.Order.Monotone.Basic

/-! Parts that are out of their range carry into the next larger part. Year and month are one
count of months, of which each is as long as the calendar says, and the other parts are one
count of milliseconds from the first of the month, so that moving from a part into the next
larger one leaves both counts alone. A double beyond 64 bits is taken for the nearest 64-bit
integer, though, before any carrying. Main statement: two dates whose parts differ by carrying
are the same just when every part that was changed is a 64-bit integer on both sides
(`carried_parts_agree`). -/

namespace Accessors

namespace Number

def IsInteger (x : Float) (n : Int) : Prop :=
  isWhole x = true ∧ truncated? x = some n

instance (x : Float) (n : Int) : Decidable (IsInteger x n) :=
  inferInstanceAs (Decidable (_ ∧ _))

def saturated (n : Int) : Int :=
  max leastInt64 (min greatestInt64 n)

theorem fitsInt64_iff {n : Int} :
    fitsInt64 n = true ↔ -9223372036854775808 ≤ n ∧ n ≤ 9223372036854775807 :=
  decide_eq_true_iff

theorem saturated_eq_self_iff {n : Int} : saturated n = n ↔ fitsInt64 n = true := by
  rw [fitsInt64_iff]
  unfold saturated leastInt64 greatestInt64
  omega

theorem saturated_add_iff {n d : Int} :
    saturated (n + d) = saturated n + d ↔
      n + d = n ∨ fitsInt64 (n + d) = true ∧ fitsInt64 n = true := by
  rw [fitsInt64_iff, fitsInt64_iff]
  unfold saturated leastInt64 greatestInt64
  omega

namespace IsInteger
variable {x : Float} {n : Int}

theorem isFinite (h : IsInteger x n) : isFinite x = true := by
  have value := h.2
  unfold truncated? at value
  unfold Number.isFinite
  cases parts : binary x <;> rw [parts] at value <;> cases value

theorem toInt64 (h : IsInteger x n) : toInt64 x = saturated n := by
  have value := h.2
  unfold truncated? at value
  unfold Number.toInt64
  cases parts : binary x <;> rw [parts] at value <;> cases value
  rfl

end IsInteger

end Number

namespace Calendar
open Number

def monthStart (months : Int) : Int :=
  dayOf (months / 12) (months % 12).toNat 1

def monthLength (months : Int) : Nat :=
  daysInMonth (months / 12) (months % 12).toNat

theorem daysBeforeMonth_succ (year : Int) {month : Nat} (lt : month < 12) :
    daysBeforeMonth year (month + 1) = daysBeforeMonth year month + daysInMonth year month := by
  have within : month < (monthLengths (isLeap year)).length := lt
  rw [daysBeforeMonth_eq_sum, daysBeforeMonth_eq_sum, List.take_succ_eq_append_getElem within,
    List.sum_append, List.sum_singleton]
  unfold daysInMonth
  rw [List.getD_eq_getElem?_getD, List.getElem?_eq_getElem within]
  rfl

theorem daysBeforeMonth_twelve (year : Int) :
    (daysBeforeMonth year 12 : Int) = daysInYear year := by
  rw [daysBeforeMonth_eq_sum, ← sum_monthLengths]
  rfl

theorem monthStart_succ (months : Int) :
    monthStart (months + 1) = monthStart months + monthLength months := by
  have lt : (months % 12).toNat < 12 := by omega
  have next := daysBeforeMonth_succ (months / 12) lt
  unfold monthStart monthLength dayOf
  by_cases last : months % 12 = 11
  · have year : (months + 1) / 12 = months / 12 + 1 := by omega
    have first : ((months + 1) % 12).toNat = 0 := by omega
    have full := daysBeforeMonth_twelve (months / 12)
    have december : (months % 12).toNat = 11 := by omega
    have none (year : Int) : daysBeforeMonth year 0 = 0 := rfl
    rw [december] at next
    rw [year, first, december, daysBeforeYear_succ, none, ← full, next]
    omega
  · have year : (months + 1) / 12 = months / 12 := by omega
    have same : ((months + 1) % 12).toNat = (months % 12).toNat + 1 := by omega
    rw [year, same]
    omega

theorem monthLength_pos (months : Int) : 0 < monthLength months :=
  (IsDate.first (months / 12) (show (months % 12).toNat < 12 by omega)).day_le

theorem monthStart_inj {a b : Int} : monthStart a = monthStart b ↔ a = b := by
  have rising : StrictMono monthStart := strictMono_int_of_lt_succ fun months => by
    have positive := monthLength_pos months
    rw [monthStart_succ]
    omega
  exact rising.injective.eq_iff

namespace Parts

def Holds (x : Parts Float) (p : Parts Int) : Prop :=
  ∀ part, IsInteger (x.get part) (p.get part)

/-- Parts that stand for the same date, one part moved into the next larger one. -/
inductive Carries : Parts Int → Parts Int → Prop
  | months (p : Parts Int) (k : Int) :
    Carries { p with month := p.month + 12 * k } { p with year := p.year + k }
  | days (p : Parts Int) :
    Carries { p with day := p.day + monthLength (p.year * 12 + p.month) }
      { p with month := p.month + 1 }
  | hours (p : Parts Int) (k : Int) :
    Carries { p with hour := p.hour + 24 * k } { p with day := p.day + k }
  | minutes (p : Parts Int) (k : Int) :
    Carries { p with minute := p.minute + 60 * k } { p with hour := p.hour + k }
  | seconds (p : Parts Int) (k : Int) :
    Carries { p with second := p.second + 60 * k } { p with minute := p.minute + k }
  | milliseconds (p : Parts Int) (k : Int) :
    Carries { p with millisecond := p.millisecond + 1000 * k } { p with second := p.second + k }

def instant (p : Parts Int) : Int :=
  (monthStart (p.year * 12 + p.month) + (p.day - 1)) * 86400000 + p.hour * 3600000 +
    p.minute * 60000 + p.second * 1000 + p.millisecond

def clipped (p : Parts Int) : Parts Int :=
  { p with month := saturated p.month, millisecond := saturated p.millisecond }

structure Fits (p : Parts Int) : Prop where
  year : fitsInt64 p.year = true
  day : fitsInt64 p.day = true
  hour : fitsInt64 p.hour = true
  minute : fitsInt64 p.minute = true
  second : fitsInt64 p.second = true

end Parts

theorem Parts.firstOfMonth_eq_ok {p : Parts Int} {first : Int} (start : p.firstOfMonth.result = .ok first) :
    fitsInt64 (p.year * 12) = true ∧ first = Calendar.monthStart (p.year * 12 + p.month) := by
  unfold Parts.firstOfMonth at start
  simp only [Reckoning.bind_eq_ok, Reckoning.guarded, Reckoning.unguarded,
    Reckoning.perform_eq_ok, Reckoning.ofOption_eq_ok] at start
  obtain ⟨_, ⟨years, rfl⟩, _, ⟨_, rfl⟩, year, narrow, _, ⟨_, rfl⟩, found⟩ := start
  split at narrow
  · obtain rfl := Option.some.inj narrow
    unfold firstOfMonth? at found
    dsimp only at found
    split at found
    · refine ⟨years, (Option.some.inj found).symm.trans ?_⟩
      unfold Calendar.monthStart
      rw [Int.add_sub_cancel]
    · cases found
  · cases narrow

theorem fits_of_multiple {n c : Int} (two : 2 ≤ c) (fits : fitsInt64 (saturated n * c) = true) :
    fitsInt64 n = true := by
  rw [fitsInt64_iff] at fits
  rw [← saturated_eq_self_iff]
  by_cases low : n < leastInt64
  · have least : saturated n = -9223372036854775808 := by
      unfold saturated leastInt64 at *
      omega
    have negative : (-9223372036854775808 : Int) ≤ 0 := by decide
    have twice := Int.mul_le_mul_of_nonpos_left negative two
    rw [least] at fits
    omega
  by_cases high : greatestInt64 < n
  · have greatest : saturated n = 9223372036854775807 := by
      unfold saturated leastInt64 greatestInt64 at *
      omega
    have twice := Int.mul_le_mul_of_nonneg_left two (show (0 : Int) ≤ 9223372036854775807 by decide)
    rw [greatest] at fits
    omega
  · unfold saturated
    omega

namespace Parts
variable {p : Parts Int}

theorem elapsed_map_saturated {elapsed : Int}
    (since : (p.map saturated).elapsed.result = .ok elapsed) :
    (fitsInt64 p.day = true ∧ fitsInt64 p.hour = true ∧ fitsInt64 p.minute = true ∧
        fitsInt64 p.second = true) ∧
      elapsed = (p.day - 1) * 86400000 + p.hour * 3600000 + p.minute * 60000 + p.second * 1000 +
        saturated p.millisecond := by
  unfold Parts.elapsed Parts.map at since
  simp only [Reckoning.bind_eq_ok, Reckoning.guarded, Reckoning.unguarded,
    Reckoning.perform_eq_ok] at since
  obtain ⟨_, ⟨_, rfl⟩, _, ⟨days, rfl⟩, _, ⟨hours, rfl⟩, _, ⟨_, rfl⟩, _, ⟨minutes, rfl⟩, _, ⟨_, rfl⟩, _,
    ⟨seconds, rfl⟩, _, ⟨_, rfl⟩, _, rfl⟩ := since
  have hour := fits_of_multiple (by decide) hours
  have minute := fits_of_multiple (by decide) minutes
  have second := fits_of_multiple (by decide) seconds
  have day : fitsInt64 p.day = true := by
    rw [fitsInt64_iff] at days ⊢
    unfold saturated leastInt64 greatestInt64 at *
    omega
  refine ⟨⟨day, hour, minute, second⟩, ?_⟩
  simp only [saturated_eq_self_iff.mpr, day, hour, minute, second]

theorem ofParts_map_saturated {m : Moment}
    (made : (Moment.ofParts (p.map saturated)).result = .ok m) :
    p.Fits ∧ Moment.ofMillis? p.clipped.instant = some m := by
  unfold Moment.ofParts at made
  simp only [Reckoning.bind_eq_ok, Reckoning.ofOption_eq_ok] at made
  obtain ⟨first, start, elapsed, since, made⟩ := made
  obtain ⟨⟨day, hour, minute, second⟩, rfl⟩ := elapsed_map_saturated since
  obtain ⟨years, rfl⟩ := firstOfMonth_eq_ok start
  have year := fits_of_multiple (by decide) years
  refine ⟨⟨year, day, hour, minute, second⟩, ?_⟩
  rw [← made]
  unfold clipped instant map
  dsimp only
  rw [saturated_eq_self_iff.mpr year]
  congr 1
  omega

end Parts

theorem Moment.eq_iff_of_ofMillis? {a b : Int} {m m' : Moment} (left : Moment.ofMillis? a = some m)
    (right : Moment.ofMillis? b = some m') : m = m' ↔ a = b := by
  constructor
  · rintro rfl
    rw [← Moment.ofMillis?_millis left, ← Moment.ofMillis?_millis right]
  · rintro rfl
    exact Option.some.inj (left.symm.trans right)

namespace Parts
variable {p q : Parts Int}

/-- A part that was not changed, or that fits into 64 bits before and after. -/
def Intact (p q : Parts Int) (part : Part) : Prop :=
  p.get part = q.get part ∨ fitsInt64 (p.get part) = true ∧ fitsInt64 (q.get part) = true

theorem Fits.intact_iff (left : p.Fits) (right : q.Fits) :
    (∀ part, p.Intact q part) ↔ p.Intact q .month ∧ p.Intact q .millisecond := by
  refine ⟨fun all => ⟨all .month, all .millisecond⟩, fun ⟨month, millisecond⟩ part => ?_⟩
  cases part with
  | year => exact .inr ⟨left.year, right.year⟩
  | month => exact month
  | day => exact .inr ⟨left.day, right.day⟩
  | hour => exact .inr ⟨left.hour, right.hour⟩
  | minute => exact .inr ⟨left.minute, right.minute⟩
  | second => exact .inr ⟨left.second, right.second⟩
  | millisecond => exact millisecond

theorem Carries.instant_eq_iff (carries : p.Carries q) :
    p.clipped.instant = q.clipped.instant ↔ p.Intact q .month ∧ p.Intact q .millisecond := by
  cases carries with
  | months p k =>
    have same := monthStart_inj (a := p.year * 12 + saturated (p.month + 12 * k))
      (b := (p.year + k) * 12 + saturated p.month)
    simp only [clipped, instant, Intact, get, true_or, and_true]
    rw [← saturated_add_iff]
    omega
  | days p =>
    simp only [clipped, instant, Intact, get, true_or, and_true]
    have next := monthStart_succ (p.year * 12 + p.month)
    have positive := monthLength_pos (p.year * 12 + p.month)
    by_cases fits : fitsInt64 p.month = true ∧ fitsInt64 (p.month + 1) = true
    · rw [saturated_eq_self_iff.mpr fits.1, saturated_eq_self_iff.mpr fits.2, ← Int.add_assoc, next]
      refine iff_of_true ?_ (.inr fits)
      omega
    · have same : saturated (p.month + 1) = saturated p.month := by
        rw [fitsInt64_iff, fitsInt64_iff] at fits
        unfold saturated leastInt64 greatestInt64
        omega
      rw [same]
      refine iff_of_false (by omega) fun intact => ?_
      exact fits (intact.resolve_left (by omega))
  | milliseconds p k =>
    simp only [clipped, instant, Intact, get, true_or, true_and]
    rw [← saturated_add_iff]
    omega
  | _ p k =>
    simp only [clipped, instant, Intact, get, true_or, and_true, iff_true]
    omega

end Parts

end Calendar

open Calendar Number

theorem momentOfParts_of_holds {x : Parts Float} {p : Parts Int} (holds : x.Holds p) :
    momentOfParts x = Moment.ofParts (p.map saturated) := by
  have finite : x.toList.all Number.isFinite = true :=
    Parts.all_toList fun part => (holds part).isFinite
  have cast : x.map Number.toInt64 = p.map saturated := by
    refine Parts.ext_get fun part => ?_
    rw [Parts.get_map, Parts.get_map, (holds part).toInt64]
  unfold momentOfParts
  rw [if_pos finite, cast]

/-- Two dates, made of integer doubles that differ by carrying, are the same just when every part
that was changed is a 64-bit integer before and after. -/
theorem carried_parts_agree {x y : Parts Float} {p q : Parts Int} {m m' : Moment}
    (before : x.Holds p) (after : y.Holds q) (carries : p.Carries q)
    (left : (momentOfParts x).result = .ok m) (right : (momentOfParts y).result = .ok m') :
    m = m' ↔ ∀ part, p.Intact q part := by
  rw [momentOfParts_of_holds before] at left
  rw [momentOfParts_of_holds after] at right
  obtain ⟨fits, made⟩ := Parts.ofParts_map_saturated left
  obtain ⟨fits', made'⟩ := Parts.ofParts_map_saturated right
  rw [Moment.eq_iff_of_ofMillis? made made', carries.instant_eq_iff, fits.intact_iff fits']

/-- The 30th of February 2020, counted from the first of January 2019. -/
def lateFebruary : Parts Int := ⟨2019, 13, 30, 0, 0, 0, 0⟩

/-- The length of February takes it to the first of March. -/
theorem late_february_is_march :
    let march : Parts Int := ⟨2019, 14, 1, 0, 0, 0, 0⟩
    let x := lateFebruary.map ofInt
    let y := march.map ofInt
    x.Holds lateFebruary ∧ y.Holds march ∧ lateFebruary.Carries march ∧
      ∃ m, (momentOfParts x).result = .ok m ∧ (momentOfParts y).result = .ok m := by
  intro march x y
  have before : x.Holds lateFebruary := by
    intro part
    cases part <;> decide +kernel
  have after : y.Holds march := by
    intro part
    cases part <;> decide +kernel
  have carries : lateFebruary.Carries march := .days ⟨2019, 13, 1, 0, 0, 0, 0⟩
  obtain ⟨m, left⟩ := exists_ok_of_isOk
    (show (momentOfParts x).result.isOk = true by decide +kernel)
  obtain ⟨m', right⟩ := exists_ok_of_isOk
    (show (momentOfParts y).result.isOk = true by decide +kernel)
  have small : ∀ part, lateFebruary.Intact march part := by
    intro part
    exact .inr (by cases part <;> decide)
  obtain rfl := (carried_parts_agree before after carries left right).mpr small
  exact ⟨before, after, carries, m, left, right⟩

/-- More months than 64 bits hold, from a year as far away on the other side. -/
def monthsBeyond : Parts Int := ⟨-768614336404564608, 9223372036854775808, 1, 0, 0, 0, 0⟩

/-- One month is lost on the way: what is the first of September 42 becomes that of August. -/
theorem months_beyond_lose_one :
    let carried : Parts Int := ⟨0, 512, 1, 0, 0, 0, 0⟩
    let august : Moment := ⟨dayOf 42 7 1, 0, 0, by decide, by decide, by decide⟩
    let september : Moment := ⟨dayOf 42 8 1, 0, 0, by decide, by decide, by decide⟩
    (monthsBeyond.map ofInt).Holds monthsBeyond ∧ (carried.map ofInt).Holds carried ∧
      monthsBeyond.Carries carried ∧ (momentOfParts (monthsBeyond.map ofInt)).result = .ok august ∧
      (momentOfParts (carried.map ofInt)).result = .ok september ∧ august ≠ september := by
  intro carried august september
  refine ⟨fun part => ?_, fun part => ?_, ?_, by decide +kernel, by decide +kernel, by decide⟩
  · cases part <;> decide +kernel
  · cases part <;> decide +kernel
  · exact .months ⟨-768614336404564608, 512, 1, 0, 0, 0, 0⟩ 768614336404564608

end Accessors
