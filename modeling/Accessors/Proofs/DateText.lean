import Accessors.Calendar.Reading
import Accessors.Proofs.DateParts
import Accessors.Proofs.Stepwise

/-! Written dates read back. Every field of a written date is a number of fixed width, and a
scanner of that width takes just that number off. The form with a zone is the first one tried
and takes a date as it is displayed, so the other forms never see it. Main statement: a date of
the years 0 to 9999, on a whole millisecond and no leap second, is made again of its own text
(`written_date_reads_back`). -/

namespace Accessors

namespace Number

theorem digitsValue_toDigits (n : Nat) : digitsValue (Nat.toDigits 10 n) = n := by
  have step : (fun n c => digitOf c + 10 * n) = fun n c => 10 * n + (c.toNat - '0'.toNat) :=
    funext₂ fun n c => Nat.add_comm (digitOf c) (10 * n)
  rw [digitsValue_eq, step]
  exact Nat.ofDigitChars_ten_toDigits

theorem digitsValue_zeros_append (k : Nat) (digits : List Char) :
    digitsValue (List.replicate k '0' ++ digits) = digitsValue digits := by
  have zeros : (List.replicate k '0').foldl (fun n c => digitOf c + 10 * n) 0 = 0 := by
    induction k with
    | zero => rfl
    | succ k ih => exact ih
  rw [digitsValue_eq, digitsValue_eq, List.foldl_append, zeros]

theorem isDigit_of_mem_toDigits {n : Nat} {c : Char} (mem : c ∈ Nat.toDigits 10 n) :
    isDigit c = true := by
  have digit := Nat.isDigit_of_mem_toDigits (by decide) (by decide) mem
  unfold isDigit
  simpa [Char.isDigit, Char.le_def] using digit

end Number

namespace Calendar
open Number

section
variable {width n : Nat}

theorem length_padded (some : 0 < width) (fits : n < 10 ^ width) :
    (padded width n).length = width := by
  have most := (Nat.length_toDigits_le_iff (by decide) some).mpr fits
  unfold padded
  rw [List.length_append, List.length_replicate]
  omega

theorem isDigit_of_mem_padded {c : Char} (mem : c ∈ padded width n) : isDigit c = true := by
  rcases List.mem_append.mp mem with zero | digit
  · obtain rfl := List.eq_of_mem_replicate zero
    rfl
  · exact isDigit_of_mem_toDigits digit

theorem digitsValue_padded : digitsValue (padded width n) = n := by
  unfold padded
  rw [digitsValue_zeros_append, digitsValue_toDigits]

/-- A scanner that does not stop short of a number, and finds no digit after it, takes the number
off. -/
theorem scanDigits_padded {least most : Nat} {rest : List Char} (some : 0 < width)
    (fits : n < 10 ^ width) (low : least ≤ width) (high : width ≤ most)
    (stops : (rest.take (most - width)).takeWhile isDigit = []) :
    scanDigits least most (padded width n ++ rest) = .some (n, rest) := by
  have length := length_padded some fits
  have digits : ((padded width n ++ rest).take most).takeWhile isDigit = padded width n := by
    rw [List.take_append, List.take_of_length_le (by omega), length,
      List.takeWhile_append_of_pos fun c mem => isDigit_of_mem_padded mem, stops, List.append_nil]
  unfold scanDigits
  dsimp only
  rw [digits, if_neg (by omega), digitsValue_padded, List.drop_left]

theorem scanDigits_fixed (some : 0 < width) (fits : n < 10 ^ width) (rest : List Char) :
    scanDigits width width (padded width n ++ rest) = .some (n, rest) :=
  scanDigits_padded some fits (Nat.le_refl _) (Nat.le_refl _) (by rw [Nat.sub_self]; rfl)

end

theorem scanMark_cons (mark : Char) (rest : List Char) :
    scanMark mark (mark :: rest) = some rest :=
  if_pos rfl

theorem scanZone_zulu : scanZone ['Z'] = some (0, []) := rfl

theorem then_of_some {α β : Type} {x : Option α} {a : α} (scanned : x = some a)
    (next : α → Option β) : (x >>= next) = next a := by
  rw [scanned]
  rfl

theorem scanFraction_padded {n : Nat} (fits : n < 1000) :
    scanFraction ('.' :: (padded 3 n ++ ['Z'])) = some (n * 1000000, ['Z']) := by
  have scanned : scanDigits 1 9 (padded 3 n ++ ['Z']) = some (n, ['Z']) :=
    scanDigits_padded (by decide) fits (by decide) (by decide) rfl
  have length : (padded 3 n).length = 3 := length_padded (by decide) fits
  simp only [scanFraction, scanned, Option.bind_eq_bind, Option.bind_some, List.length_append,
    length]
  rfl

theorem momentOf?_parts {m : Moment} (whole : m.IsWhole) :
    momentOf? (civil m.day).1 ((civil m.day).2.1 + 1) (civil m.day).2.2 (m.second / 3600)
      (m.second / 60 % 60) (m.second % 60) (m.nano / 1000000 * 1000000) = some m := by
  have date := isDate_civil m.day
  have month := date.month_lt
  have day_pos := date.day_pos
  have day_le := date.day_le
  have counted := dayOf_civil m.day
  obtain ⟨day, second, nano, day_range, second_lt, nano_lt⟩ := m
  obtain ⟨ordinary, round⟩ := whole
  dsimp only at *
  have there : 1 ≤ (civil day).2.1 + 1 ∧ (civil day).2.1 + 1 ≤ 12 ∧ 1 ≤ (civil day).2.2 ∧
      (civil day).2.2 ≤ daysInMonth (civil day).1 (civil day).2.1 ∧
      second / 3600 < 24 ∧ second / 60 % 60 < 60 ∧ second % 60 ≤ 60 := by omega
  have minute : second % 60 ≠ 60 := by omega
  have clock : second / 3600 * 3600 + second / 60 % 60 * 60 + second % 60 = second := by omega
  have fraction : 0 + nano / 1000000 * 1000000 = nano := by omega
  unfold momentOf? Moment.of?
  simp only [if_neg minute, Nat.add_sub_cancel, clock, counted, fraction]
  rw [if_pos there, dif_pos ⟨day_range, second_lt, nano_lt⟩]

theorem Moment.before?_zero (m : Moment) : m.before? 0 = some m := by
  obtain ⟨day, second, nano, day_range, second_lt, nano_lt⟩ := m
  have days : (day * 86400 + second - 0) / 86400 = day := by omega
  have seconds : ((day * 86400 + second - 0) % 86400).toNat = second := by omega
  unfold Moment.before? Moment.of?
  simp only [days, seconds]
  rw [dif_pos ⟨day_range, second_lt, nano_lt⟩]

section
variable {m : Moment} (early : 0 ≤ (civil m.day).1 ∧ (civil m.day).1 ≤ 9999) (whole : m.IsWhole)
include early whole

theorem display_toList :
    m.display.toList =
      padded 4 (civil m.day).1.toNat ++ '-' :: (padded 2 ((civil m.day).2.1 + 1) ++
        '-' :: (padded 2 (civil m.day).2.2 ++ 'T' :: (padded 2 (m.second / 3600) ++
        ':' :: (padded 2 (m.second / 60 % 60) ++ ':' :: (padded 2 (m.second % 60) ++
        '.' :: (padded 3 (m.nano / 1000000) ++ ['Z'])))))) := by
  have second : m.second % 60 + m.nano / 1000000000 = m.second % 60 := by
    rw [Nat.div_eq_of_lt whole.1, Nat.add_zero]
  have fraction : m.fraction = m.nano := Nat.mod_eq_of_lt whole.1
  unfold Moment.display Moment.writtenSeconds Moment.writtenDate Moment.writtenTime writtenYear
  dsimp only
  rw [String.toList_ofList, if_pos early, second, fraction]
  simp only [List.append_assoc, List.cons_append]

theorem stamp?_display : stamp? m.display.toList = some m := by
  have date := isDate_civil m.day
  have month := date.month_lt
  have most := date.day_le_31
  have second_lt := m.second_lt
  have ordinary := whole.1
  have year : ((civil m.day).1.toNat : Int) = (civil m.day).1 := Int.toNat_of_nonneg early.1
  rw [display_toList early whole]
  unfold stamp?
  have four : 0 < 4 := by decide
  have two : 0 < 2 := by decide
  have year_fits : (civil m.day).1.toNat < 10 ^ 4 := by omega
  have month_fits : (civil m.day).2.1 + 1 < 10 ^ 2 := by omega
  have day_fits : (civil m.day).2.2 < 10 ^ 2 := by omega
  have hour_fits : m.second / 3600 < 10 ^ 2 := by omega
  have minute_fits : m.second / 60 % 60 < 10 ^ 2 := by omega
  have second_fits : m.second % 60 < 10 ^ 2 := by omega
  have fraction_fits : m.nano / 1000000 < 1000 := by omega
  rw [then_of_some (scanDigits_fixed four year_fits _)]
  dsimp only
  rw [then_of_some (scanMark_cons _ _), then_of_some (scanDigits_fixed two month_fits _)]
  dsimp only
  rw [then_of_some (scanMark_cons _ _), then_of_some (scanDigits_fixed two day_fits _)]
  dsimp only
  rw [scanMark_cons, Option.some_or, then_of_some rfl,
    then_of_some (scanDigits_fixed two hour_fits _)]
  dsimp only
  rw [then_of_some (scanMark_cons _ _), then_of_some (scanDigits_fixed two minute_fits _)]
  dsimp only
  rw [then_of_some (scanMark_cons _ _), then_of_some (scanDigits_fixed two second_fits _)]
  dsimp only
  rw [then_of_some (scanFraction_padded fraction_fits)]
  dsimp only
  rw [then_of_some scanZone_zulu]
  dsimp only
  rw [if_pos rfl, year, momentOf?_parts whole]
  exact m.before?_zero

theorem trim_display : Text.trim m.display.toList = m.display.toList := by
  obtain ⟨first, rest, opening⟩ := List.exists_cons_of_length_pos
    (show 0 < (padded 4 (civil m.day).1.toNat).length by
      rw [length_padded (by decide) (by omega)]
      decide)
  have first_mem : first ∈ padded 4 (civil m.day).1.toNat := by
    rw [opening]
    exact List.mem_cons_self
  have digit := isDigit_of_mem_padded first_mem
  have starts : ∃ more, m.display.toList = first :: more := by
    rw [display_toList early whole, opening]
    exact ⟨_, rfl⟩
  have ends : ∃ before, m.display.toList = before ++ ['Z'] := by
    unfold Moment.display
    rw [String.toList_ofList]
    exact ⟨_, rfl⟩
  obtain ⟨more, starts⟩ := starts
  obtain ⟨before, ends⟩ := ends
  unfold Text.trim
  rw [starts, Text.trimLeft_eq_self (isBlank_of_isDigit digit), ← starts, ends,
    Text.trimRight_eq_self (by decide)]

theorem read?_display : Moment.read? m.display = some m := by
  unfold Moment.read?
  dsimp only
  rw [trim_display early whole, stamp?_display early whole, Option.some_or]

end

end Calendar

open Calendar

/-- A date of the years 0 to 9999, on a whole millisecond and no leap second: its text as a value
is also the one in JSON, and made of that text alone a date is this one again. -/
theorem written_date_reads_back (e : Engine) {w : World} {r : Ref} {m : Moment}
    (dated : w.objects[r]? = some (.date m))
    (early : 0 ≤ (civil m.day).1 ∧ (civil m.day).1 ≤ 9999) (whole : m.IsWhole) :
    (valueToJson e (.date r)).run w = .ok (some (.str (w.display (.date r)))) w ∧
      (NativeType.date.construct [.str (w.display (.date r))]).run w =
        .ok (.date w.objects.size) { w with objects := w.objects.push (.date m) } := by
  have moment : w.moment r = m := by
    unfold World.moment
    rw [dated]
  have shown : w.display (.date r) = (w.moment r).display := by
    unfold World.display World.displayWithin
    rfl
  have read : w.momentOf [.str m.display] = .ok m := by
    simp only [World.momentOf, read?_display early whole, orRefused, orInvalid]
  refine ⟨?_, ?_⟩
  · rw [shown]
    rfl
  · rw [shown, moment]
    unfold NativeType.construct
    rw [EStateM.run_bind, EStateM.run_get]
    dsimp only
    rw [read]
    rfl

def leapNight : Moment := ⟨dayOf 0 1 29, 86399, 999000000, by decide, by decide, by decide⟩

theorem leap_night_reads_back :
    let w := { World.initial with objects := #[.date leapNight] }
    w.display (.date 0) = "0000-02-29T23:59:59.999Z" ∧
      (valueToJson (engine 0) (.date 0)).run w =
        .ok (some (.str "0000-02-29T23:59:59.999Z")) w ∧
      (NativeType.date.construct [.str "0000-02-29T23:59:59.999Z"]).run w =
        .ok (.date 1) { w with objects := #[.date leapNight, .date leapNight] } := by
  intro w
  have shown : w.display (.date 0) = "0000-02-29T23:59:59.999Z" := by decide +kernel
  have reads := written_date_reads_back (engine 0) (w := w) (r := 0) (m := leapNight) rfl
    (by decide) (by unfold Moment.IsWhole; decide)
  rw [shown] at reads
  exact ⟨shown, reads⟩

end Accessors
