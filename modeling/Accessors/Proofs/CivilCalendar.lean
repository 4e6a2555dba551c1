import Accessors.Calendar.Day
import Mathlib.Algebra.Ring.Nat

/-! The civil calendar is a numbering of the days. Every day has exactly one year, month and
day of the month, and every date of the calendar is that of exactly one day: `civil` and
`dayOf` are inverse to each other. -/

namespace Accessors.Calendar

/-- A year counted with its months and days: the month exists, and the day does in the month. -/
structure IsDate (year : Int) (month day : Nat) : Prop where
  month_lt : month < 12
  day_pos : 1 ≤ day
  day_le : day ≤ daysInMonth year month

theorem daysBeforeYear_le {a b : Int} (le : a ≤ b) : daysBeforeYear a ≤ daysBeforeYear b := by
  unfold daysBeforeYear
  omega

theorem year_unique {count a b : Int}
    (ha : daysBeforeYear a ≤ count ∧ count < daysBeforeYear (a + 1))
    (hb : daysBeforeYear b ≤ count ∧ count < daysBeforeYear (b + 1)) : a = b := by
  rcases Int.lt_trichotomy a b with lt | eq | lt
  · have := daysBeforeYear_le (show a + 1 ≤ b by omega)
    omega
  · exact eq
  · have := daysBeforeYear_le (show b + 1 ≤ a by omega)
    omega

theorem daysBeforeMonth_eq_sum (year : Int) (month : Nat) :
    daysBeforeMonth year month = ((monthLengths (isLeap year)).take month).sum :=
  List.sum_eq_foldl.symm

theorem sum_monthLengths (year : Int) :
    ((monthLengths (isLeap year)).sum : Int) = daysInYear year := by
  unfold daysInYear
  cases isLeap year <;> rfl

theorem splitMonths_add {lengths : List Nat} {month rest : Nat}
    (lt : rest < lengths.getD month 0) :
    splitMonths lengths ((lengths.take month).sum + rest) = (month, rest) := by
  induction lengths generalizing month with
  | nil => simp at lt
  | cons length lengths ih =>
    cases month with
    | zero =>
      have here : rest < length := by simpa using lt
      simp [splitMonths, here]
    | succ month =>
      have later : splitMonths lengths ((lengths.take month).sum + rest) = (month, rest) :=
        ih (by simpa using lt)
      have past : ¬ length + (lengths.take month).sum + rest < length := by omega
      have left : length + (lengths.take month).sum + rest - length =
          (lengths.take month).sum + rest := by omega
      rw [List.take_succ_cons, List.sum_cons, splitMonths, if_neg past, left, later]

theorem splitMonths_spec {lengths : List Nat} {rest : Nat} (lt : rest < lengths.sum) :
    (lengths.take (splitMonths lengths rest).1).sum + (splitMonths lengths rest).2 = rest ∧
      (splitMonths lengths rest).2 < lengths.getD (splitMonths lengths rest).1 0 := by
  induction lengths generalizing rest with
  | nil => simp at lt
  | cons length lengths ih =>
    unfold splitMonths
    by_cases here : rest < length
    · simp [here]
    · rw [List.sum_cons] at lt
      obtain ⟨whole, within⟩ := ih (show rest - length < lengths.sum by omega)
      simp only [if_neg here, List.take_succ_cons, List.sum_cons, List.getD_cons_succ]
      exact ⟨by omega, within⟩

theorem sum_take_add_getD_le (lengths : List Nat) (month : Nat) :
    (lengths.take month).sum + lengths.getD month 0 ≤ lengths.sum := by
  induction lengths generalizing month with
  | nil => simp
  | cons length lengths ih =>
    cases month with
    | zero => simp
    | succ month =>
      have later := ih month
      simp only [List.take_succ_cons, List.sum_cons, List.getD_cons_succ]
      omega

theorem dayOf_in_year {year : Int} {month day : Nat} (date : IsDate year month day) :
    daysBeforeYear year ≤ dayOf year month day + epochDay ∧
      dayOf year month day + epochDay < daysBeforeYear (year + 1) := by
  have most : daysBeforeMonth year month + daysInMonth year month ≤
      (monthLengths (isLeap year)).sum := by
    rw [daysBeforeMonth_eq_sum]
    exact sum_take_add_getD_le _ month
  have total := sum_monthLengths year
  have next := daysBeforeYear_succ year
  have day_pos := date.day_pos
  have day_le := date.day_le
  unfold dayOf
  omega

theorem yearOfDay_dayOf {year : Int} {month day : Nat} (date : IsDate year month day) :
    yearOfDay (dayOf year month day) = year :=
  year_unique (yearOfDay_spec _) (dayOf_in_year date)

theorem civil_dayOf {year : Int} {month day : Nat} (date : IsDate year month day) :
    civil (dayOf year month day) = (year, month, day) := by
  have day_pos := date.day_pos
  have day_le := date.day_le
  have within : day - 1 < (monthLengths (isLeap year)).getD month 0 := by
    unfold daysInMonth at day_le
    omega
  have rest : (dayOf year month day + epochDay - daysBeforeYear year).toNat =
      ((monthLengths (isLeap year)).take month).sum + (day - 1) := by
    unfold dayOf
    rw [daysBeforeMonth_eq_sum]
    omega
  unfold civil
  dsimp only
  rw [yearOfDay_dayOf date, rest, splitMonths_add within]
  simp only [Prod.mk.injEq, true_and]
  omega

theorem civil_spec (day : Int) :
    IsDate (civil day).1 (civil day).2.1 (civil day).2.2 ∧
      dayOf (civil day).1 (civil day).2.1 (civil day).2.2 = day := by
  obtain ⟨first, last⟩ := yearOfDay_spec day
  rw [daysBeforeYear_succ, ← sum_monthLengths] at last
  have within_year : (day + epochDay - daysBeforeYear (yearOfDay day)).toNat <
      (monthLengths (isLeap (yearOfDay day))).sum := by omega
  obtain ⟨whole, within⟩ := splitMonths_spec within_year
  have month_lt : (splitMonths (monthLengths (isLeap (yearOfDay day)))
      (day + epochDay - daysBeforeYear (yearOfDay day)).toNat).1 < 12 := by
    refine Nat.not_le.mp fun many => ?_
    have none := List.getElem?_eq_none
      (show (monthLengths (isLeap (yearOfDay day))).length ≤ _ from many)
    rw [List.getD_eq_getElem?_getD, none] at within
    exact Nat.not_lt_zero _ within
  refine ⟨⟨month_lt, Nat.succ_le_succ (Nat.zero_le _), within⟩, ?_⟩
  unfold dayOf civil
  rw [daysBeforeMonth_eq_sum]
  dsimp only
  omega

theorem isDate_civil (day : Int) : IsDate (civil day).1 (civil day).2.1 (civil day).2.2 :=
  (civil_spec day).1

theorem dayOf_civil (day : Int) :
    dayOf (civil day).1 (civil day).2.1 (civil day).2.2 = day :=
  (civil_spec day).2

end Accessors.Calendar
