import Accessors.Number.Notation
import Accessors.Proofs.DateText
import Accessors.Proofs.InstructionGrammar
import Accessors.Proofs.WholeNumbers

/-! Displayed numbers, read as integers. A whole double of 64 bits is displayed by its digits, and
its text is read as the integer that it is. Every other display is read as none: it has a point or
an exponent, or it is the rounded form of a larger integer, which stays too large. A fraction has a
point or an exponent because a written decimal reads back as the double. Main statements:
`int64?_display`, and `parse_display`, that no displayed number is an instruction. -/

namespace Accessors

namespace Text
variable {c : Char} {s : List Char}

theorem mem_trimLeft (mem : c ∈ s) (shown : isBlank c = false) : c ∈ trimLeft s := by
  unfold trimLeft
  rw [← List.takeWhile_append_dropWhile (p := isBlank) (l := s)] at mem
  refine (List.mem_append.mp mem).resolve_left fun blank => ?_
  rw [List.mem_takeWhile_imp blank] at shown
  cases shown

theorem mem_trim (mem : c ∈ s) (shown : isBlank c = false) : c ∈ trim s := by
  have left := mem_trimLeft mem shown
  unfold trim trimRight
  exact List.mem_reverse.mpr (mem_trimLeft (List.mem_reverse.mpr left) shown)

theorem trim_eq_self (shown : ∀ c ∈ s, isBlank c = false) : trim s = s := by
  have left (t : List Char) (shown : ∀ c ∈ t, isBlank c = false) : trimLeft t = t := by
    cases t with
    | nil => rfl
    | cons c t => exact trimLeft_eq_self (shown c List.mem_cons_self)
  have right := left s.reverse fun c mem => shown c (List.mem_reverse.mp mem)
  unfold trim trimRight
  rw [left s shown]
  exact (congrArg List.reverse right).trans (List.reverse_reverse s)

end Text

namespace Number

section
variable {s : List Char}

theorem mem_takeSign {c : Char} (mem : c ∈ s) (unsigned : c ≠ '+' ∧ c ≠ '-') :
    c ∈ (takeSign s).2 := by
  unfold takeSign
  split
  · exact (List.mem_cons.mp mem).resolve_left unsigned.2
  · exact (List.mem_cons.mp mem).resolve_left unsigned.1
  · exact mem

theorem int64?_eq_none_of_mem {c : Char} (mem : c ∈ s) (other : isDigit c = false)
    (unsigned : c ≠ '+' ∧ c ≠ '-') : int64? s = none := by
  have not_digits : ¬ ((takeSign s).2 ≠ [] ∧ (takeSign s).2.all isDigit) := by
    rintro ⟨_, digits⟩
    rw [List.all_eq_true.mp digits c (mem_takeSign mem unsigned)] at other
    cases other
  unfold int64?
  exact if_neg not_digits

theorem takeSign_withSign {first : Char} (digit : isDigit first = true) (negative : Bool)
    (rest : List Char) :
    takeSign (withSign negative (first :: rest)) = (negative, first :: rest) := by
  cases negative with
  | false => exact takeSign_of_digit digit rest
  | true => exact takeSign_minus _

theorem int64?_withSign (negative : Bool) (some : s ≠ []) (digits : ∀ c ∈ s, isDigit c = true) :
    int64? (Text.trim (withSign negative s)) =
      (Option.some (signed negative (digitsValue s))).filter fitsInt64 := by
  obtain ⟨first, rest, rfl⟩ := List.exists_cons_of_ne_nil some
  have shown : ∀ c ∈ withSign negative (first :: rest), Text.isBlank c = false := by
    intro c mem
    unfold withSign at mem
    split at mem
    · rcases List.mem_cons.mp mem with rfl | mem
      · decide
      · exact isBlank_of_isDigit (digits c mem)
    · exact isBlank_of_isDigit (digits c mem)
  rw [Text.trim_eq_self shown]
  unfold int64?
  rw [takeSign_withSign (digits first List.mem_cons_self)]
  simp only [List.all_eq_true.mpr digits, some, ne_eq, not_false_eq_true, and_self, if_true]
  rfl

end

theorem digitsOf_ne_nil (n : Nat) : digitsOf n ≠ [] :=
  Nat.toDigits_ne_nil

theorem digitsValue_append_zeros (digits : List Char) (k : Nat) :
    digitsValue (digits ++ List.replicate k '0') = digitsValue digits * 10 ^ k := by
  induction k with
  | zero => simp
  | succ k ih =>
    rw [List.replicate_succ', ← List.append_assoc, digitsValue_append, ih,
      show digitOf '0' = 0 from rfl, Nat.add_zero, Nat.mul_comm, Nat.mul_assoc, Nat.pow_succ]

namespace Window

structure Straddles (w : Window) : Prop where
  above : w.least ≤ w.below + 1
  under : w.below ≤ w.greatest

theorem Straddles.coarser {w : Window} (h : w.Straddles) : w.coarser.Straddles := by
  obtain ⟨above, under⟩ := h
  constructor <;> simp only [Window.coarser] <;> omega

theorem Straddles.nearest_reads {w : Window} (h : w.Straddles) (some : w.least ≤ w.greatest)
    (tie : Tie) : w.least ≤ w.nearest tie ∧ w.nearest tie ≤ w.greatest := by
  obtain ⟨above, under⟩ := h
  unfold nearest
  split
  · omega
  · split
    · omega
    · split <;> omega

theorem below_le_nearest (w : Window) (tie : Tie) : w.below ≤ w.nearest tie := by
  unfold nearest
  split
  · omega
  · split
    · omega
    · split <;> omega

def coarsened (w : Window) : Nat → Window
  | 0 => w
  | k + 1 => (w.coarsened k).coarser

theorem coarsened_coarser (w : Window) (k : Nat) : w.coarser.coarsened k = w.coarsened (k + 1) := by
  induction k with
  | zero => rfl
  | succ k ih => exact congrArg coarser ih

theorem coarsest_eq (steps : Nat) (w : Window) :
    ∃ k, w.coarsest steps = w.coarsened k ∧
      (k ≠ 0 → (w.coarsened k).least ≤ (w.coarsened k).greatest) := by
  induction steps generalizing w with
  | zero => exact ⟨0, rfl, fun some => absurd rfl some⟩
  | succ steps ih =>
    rw [coarsest]
    split
    · rename_i reads
      obtain ⟨k, same, some⟩ := ih w.coarser
      rw [coarsened_coarser] at same some
      refine ⟨k + 1, same, fun _ => ?_⟩
      cases k with
      | zero => exact reads
      | succ k => exact some (Nat.succ_ne_zero k)
    · exact ⟨0, rfl, fun some => absurd rfl some⟩

variable (w : Window) (k : Nat)

theorem exponent_coarsened : (w.coarsened k).exponent = w.exponent + k := by
  induction k with
  | zero => exact (Int.add_zero _).symm
  | succ k ih =>
    show (w.coarsened k).exponent + 1 = _
    omega

theorem below_coarsened : (w.coarsened k).below = w.below / 10 ^ k := by
  induction k with
  | zero => exact (Nat.div_one _).symm
  | succ k ih =>
    show (w.coarsened k).below / 10 = _
    rw [ih, Nat.div_div_eq_div_mul, Nat.pow_succ]

theorem coarsened_reads (point : Nat) :
    (w.coarsened k).least ≤ point ∧ point ≤ (w.coarsened k).greatest ↔
      w.least ≤ 10 ^ k * point ∧ 10 ^ k * point ≤ w.greatest := by
  induction k generalizing point with
  | zero => simp [coarsened]
  | succ k ih =>
    have shifted : 10 ^ k * (10 * point) = 10 ^ (k + 1) * point := by
      rw [Nat.pow_succ, Nat.mul_assoc]
    rw [coarsened, coarser_reads, ih, shifted]

theorem Straddles.coarsened {w : Window} (h : w.Straddles) (k : Nat) :
    (w.coarsened k).Straddles := by
  induction k with
  | zero => exact h
  | succ k ih => exact ih.coarser

section
variable {exponent : Int} {low value high unit : Nat} (closed : Bool)

theorem of_reads_open (positive : 0 < unit) {point : Nat}
    (reads : (Window.of exponent low value high unit false).least ≤ point ∧
      point ≤ (Window.of exponent low value high unit false).greatest) :
    low < point * unit ∧ point * unit < high := by
  obtain ⟨least, greatest⟩ := reads
  change low / unit + 1 ≤ point at least
  change point ≤ (high - 1) / unit at greatest
  have above := (Nat.div_lt_iff_lt_mul positive).mp (Nat.lt_of_succ_le least)
  have under := (Nat.le_div_iff_mul_le positive).mp greatest
  omega

theorem of_reads (positive : 0 < unit) {point : Nat}
    (reads : (Window.of exponent low value high unit closed).least ≤ point ∧
      point ≤ (Window.of exponent low value high unit closed).greatest) :
    low ≤ point * unit ∧ point * unit ≤ high := by
  cases closed with
  | true =>
    obtain ⟨least, greatest⟩ := reads
    change (low + unit - 1) / unit ≤ point at least
    change point ≤ high / unit at greatest
    have above : low + unit - 1 < (point + 1) * unit :=
      (Nat.div_lt_iff_lt_mul positive).mp (Nat.lt_succ_of_le least)
    refine ⟨?_, (Nat.le_div_iff_mul_le positive).mp greatest⟩
    rw [Nat.succ_mul] at above
    omega
  | false => exact (of_reads_open positive reads).imp Nat.le_of_lt Nat.le_of_lt

theorem of_straddles (positive : 0 < unit) (above : low ≤ value) (under : value < high) :
    (Window.of exponent low value high unit closed).Straddles := by
  cases closed with
  | true =>
    constructor
    · show (low + unit - 1) / unit ≤ value / unit + 1
      rw [← Nat.add_div_right value positive]
      exact Nat.div_le_div_right (by omega)
    · exact Nat.div_le_div_right (Nat.le_of_lt under)
  | false =>
    constructor
    · exact Nat.succ_le_succ (Nat.div_le_div_right above)
    · exact Nat.div_le_div_right (by omega)

end

end Window

section
variable {significand : Nat} {exponent : Int}

theorem window_straddles (significand : Nat) (exponent : Int) :
    (window significand exponent).Straddles := by
  have scaled : 0 < power 2 exponent * power 10 (-fineExponent significand exponent) :=
    Nat.mul_pos (power_pos (by decide) _) (power_pos (by decide) _)
  refine Window.of_straddles _ ?_ (Nat.mul_le_mul_right _ (Nat.sub_le _ _)) ?_
  · exact Nat.mul_pos (Nat.mul_pos (by decide) (power_pos (by decide) _)) (power_pos (by decide) _)
  · exact Nat.mul_lt_mul_of_pos_right (by omega) scaled

/-- What is written of a double comes from some window of it, which has a point that reads back
unless it is the finest one. -/
theorem shortest_eq (tie : Tie) (significand : Nat) (exponent : Int) :
    ∃ k : Nat,
      (shortest tie significand exponent).exponent = fineExponent significand exponent + k ∧
      (window significand exponent).below / 10 ^ k ≤ (shortest tie significand exponent).digits ∧
      (k ≠ 0 →
        (window significand exponent).least ≤ 10 ^ k * (shortest tie significand exponent).digits ∧
        10 ^ k * (shortest tie significand exponent).digits ≤
          (window significand exponent).greatest) := by
  obtain ⟨k, same, some⟩ := Window.coarsest_eq 20 (window significand exponent)
  unfold shortest
  dsimp only
  rw [same]
  refine ⟨k, Window.exponent_coarsened _ k, ?_, fun coarse => ?_⟩
  · rw [← Window.below_coarsened]
    exact Window.below_le_nearest _ tie
  · rw [← Window.coarsened_reads]
    exact ((window_straddles significand exponent).coarsened k).nearest_reads (some coarse) tie

theorem power_natCast (base k : Nat) : power base (k : Int) = base ^ k := rfl

theorem fineExponent_neg (few : significand < 2 * binade) (low : exponent < 0) :
    fineExponent significand exponent < 0 := by
  have bits : significand.log2 ≤ 52 := by
    by_cases zero : significand = 0
    · rw [zero]
      decide
    · exact Nat.le_of_lt_succ ((Nat.log2_lt zero).mpr few)
  unfold fineExponent
  omega

/-- What is written of a double with a fraction has places below the units: an integer does not
read back as it. -/
theorem exponent_neg_of_hasFraction (fraction : hasFraction significand exponent = true)
    (few : significand < 2 * binade) (tie : Tie) :
    (shortest tie significand exponent).exponent < 0 := by
  have low : exponent < 0 := Int.not_le.mp fun nonneg => by
    rw [hasFraction_of_nonneg nonneg] at fraction
    cases fraction
  have fine := fineExponent_neg few low
  obtain ⟨k, places, _, reads⟩ := shortest_eq tie significand exponent
  refine Int.not_le.mp fun nonneg => ?_
  obtain ⟨b, rfl⟩ : ∃ b : Nat, exponent = -b := ⟨(-exponent).toNat, by omega⟩
  obtain ⟨a, grid⟩ : ∃ a : Nat, fineExponent significand (-b) = -a :=
    ⟨(-fineExponent significand (-b)).toNat, by omega⟩
  obtain ⟨t, rfl⟩ : ∃ t, k = t + a := ⟨k - a, by omega⟩
  generalize (shortest tie significand (-b)).digits = digits at reads
  have within := Window.of_reads _ (Nat.mul_pos (Nat.mul_pos (by decide) (power_pos (by decide) _))
    (power_pos (by decide) _)) (reads (by omega))
  rw [grid, power_of_nonpos 2 (show -(b : Int) ≤ 0 by omega),
    power_of_nonpos 10 (show -(a : Int) ≤ 0 by omega), Int.neg_neg, Int.neg_neg, power_natCast,
    power_natCast, Nat.one_mul, Nat.mul_one] at within
  have point : 10 ^ (t + a) * digits * (4 * 2 ^ b) = 4 * (10 ^ t * digits * 2 ^ b) * 10 ^ a := by
    rw [Nat.pow_add]
    ac_rfl
  rw [point] at within
  have least := Nat.le_of_mul_le_mul_right within.1 (Nat.pow_pos (by decide))
  have greatest := Nat.le_of_mul_le_mul_right within.2 (Nat.pow_pos (by decide))
  have exact : significand = 10 ^ t * digits * 2 ^ b := by
    split at least <;> omega
  have divided : significand % power 2 (-(-b : Int)) = 0 := by
    rw [Int.neg_neg, power_natCast, exact, Nat.mul_mod_left]
  unfold hasFraction at fraction
  rw [divided] at fraction
  cases fraction

theorem below_window (high : 0 ≤ exponent) {k t : Nat}
    (whole : fineExponent significand exponent + k = t) :
    (window significand exponent).below / 10 ^ k = significand * power 2 exponent / 10 ^ t := by
  have below : (window significand exponent).below =
      4 * significand * (power 2 exponent * power 10 (-fineExponent significand exponent)) /
        (4 * power 2 (-exponent) * power 10 (fineExponent significand exponent)) := rfl
  rw [below, power_of_nonpos 2 (Int.neg_nonpos_of_nonneg high), Nat.mul_one, Nat.mul_assoc 4,
    Nat.mul_div_mul_left _ _ (by decide), Nat.div_div_eq_div_mul, ← Nat.mul_assoc]
  rcases Int.le_total 0 (fineExponent significand exponent) with coarse | fine
  · obtain ⟨f, grid⟩ := Int.eq_ofNat_of_zero_le coarse
    rw [grid] at whole ⊢
    rw [power_of_nonpos 10 (by omega), Nat.mul_one, power_natCast, ← Nat.pow_add,
      show f + k = t by omega]
  · obtain ⟨f, grid⟩ := Int.exists_eq_neg_ofNat fine
    rw [grid] at whole ⊢
    rw [power_of_nonpos 10 (show -(f : Int) ≤ 0 by omega), Int.neg_neg, power_natCast, Nat.one_mul,
      show k = t + f by omega, Nat.pow_add]
    exact Nat.mul_div_mul_right _ _ (Nat.pow_pos (by decide))

/-- What is written without places below the units, and not too long, of an integer is at least half
of it. -/
theorem le_twice_written (high : 0 ≤ exponent) (tie : Tie) {t : Nat}
    (whole : (shortest tie significand exponent).exponent = t)
    (reached : 10 ^ t ≤ significand * power 2 exponent) :
    significand * power 2 exponent ≤ 2 * ((shortest tie significand exponent).digits * 10 ^ t) := by
  obtain ⟨k, places, least, _⟩ := shortest_eq tie significand exponent
  rw [below_window high (places.symm.trans whole)] at least
  have positive : 0 < 10 ^ t := Nat.pow_pos (by decide)
  have some := (Nat.le_div_iff_mul_le positive).mpr ((Nat.one_mul _).trans_le reached)
  have parts := Nat.div_add_mod (significand * power 2 exponent) (10 ^ t)
  have rest := Nat.mod_lt (significand * power 2 exponent) positive
  generalize significand * power 2 exponent = value at *
  have once : 10 ^ t ≤ 10 ^ t * (value / 10 ^ t) := Nat.le_mul_of_pos_right _ some
  have least' := Nat.mul_le_mul_left (10 ^ t) least
  rw [Nat.mul_comm _ (10 ^ t)]
  omega

end

/-- Without a mark for whole numbers, a decimal is written with a point, with an exponent, or in
digits and zeros. -/
theorem write_cases (form : Notation) (unmarked : form.wholeMark = false) (significand : Nat)
    (exponent : Int) :
    '.' ∈ form.write significand exponent ∨ 'e' ∈ form.write significand exponent ∨
      ∃ t : Nat, (shortest form.tie significand exponent).exponent = t ∧
        (digitsOf (shortest form.tie significand exponent).digits).length + t ≤
          form.greatest + 1 ∧
        form.write significand exponent =
          digitsOf (shortest form.tie significand exponent).digits ++ List.replicate t '0' := by
  unfold Notation.write
  dsimp only
  split
  · unfold positional
    split
    · left
      simp
    · split
      · right
        right
        obtain ⟨t, places⟩ := Int.eq_ofNat_of_zero_le
          (show 0 ≤ (shortest form.tie significand exponent).exponent by omega)
        refine ⟨t, places, by omega, ?_⟩
        rw [unmarked, places]
        unfold zeros
        rw [show ∀ n : Nat, ((n : Int) + t - 1 + 1 - n).toNat = t by omega]
        exact List.append_nil _
      · left
        simp
  · right
    left
    unfold exponential
    simp

theorem write_starts (form : Notation) (significand : Nat) (exponent : Int) :
    ∃ first rest, form.write significand exponent = first :: rest ∧ isDigit first = true := by
  unfold Notation.write
  dsimp only
  obtain ⟨first, rest, digits⟩ :=
    List.exists_cons_of_ne_nil (digitsOf_ne_nil (shortest form.tie significand exponent).digits)
  have digit : isDigit first = true := isDigit_of_mem_toDigits (by
    rw [show Nat.toDigits 10 _ = first :: rest from digits]
    exact List.mem_cons_self)
  rw [digits]
  split
  · unfold positional
    split
    · exact ⟨'0', _, rfl, rfl⟩
    · split
      · exact ⟨first, _, rfl, digit⟩
      · rename_i some _
        obtain ⟨n, point⟩ := Nat.exists_eq_succ_of_ne_zero (show Int.toNat _ ≠ 0 from
          fun none => some (Int.toNat_eq_zero.mp none))
        rw [point]
        exact ⟨first, _, rfl, digit⟩
  · unfold exponential
    cases rest with
    | nil => exact ⟨first, _, rfl, digit⟩
    | cons second rest => exact ⟨first, _, rfl, digit⟩

section
variable {x : Float} {negative : Bool} {significand : Nat} {exponent : Int}

theorem mem_withSign {c : Char} {s : List Char} (mem : c ∈ s) : c ∈ withSign negative s := by
  unfold withSign
  split
  · exact List.mem_cons_of_mem _ mem
  · exact mem

theorem int64?_other {c : Char} {s : List Char} (mem : c ∈ s) (shown : Text.isBlank c = false)
    (other : isDigit c = false) (unsigned : c ≠ '+' ∧ c ≠ '-') :
    int64? (Text.trim (withSign negative s)) = none :=
  int64?_eq_none_of_mem (Text.mem_trim (mem_withSign mem) shown) other unsigned

theorem fitsInt64_large {n : Nat} (large : 2 ^ 63 < n) : fitsInt64 (signed negative n) = false := by
  unfold fitsInt64 signed leastInt64 greatestInt64
  split <;> exact decide_eq_false (by omega)

theorem int64?_write_fraction (fraction : hasFraction significand exponent = true)
    (few : significand < 2 * binade) :
    int64? (Text.trim (withSign negative (displayNotation.write significand exponent))) = none := by
  rcases write_cases displayNotation rfl significand exponent with
    point | power | ⟨t, places, _, _⟩
  · exact int64?_other point (by decide) (by decide) (by decide)
  · exact int64?_other power (by decide) (by decide) (by decide)
  · have below := exponent_neg_of_hasFraction fraction few displayNotation.tie
    omega

theorem int64?_write_large (high : 0 ≤ exponent)
    (large : 10 ^ 21 ≤ significand * power 2 exponent) :
    int64? (Text.trim (withSign negative (displayNotation.write significand exponent))) = none := by
  rcases write_cases displayNotation rfl significand exponent with
    point | power | ⟨t, places, short, written⟩
  · exact int64?_other point (by decide) (by decide) (by decide)
  · exact int64?_other power (by decide) (by decide) (by decide)
  · have some := List.length_pos_iff.mpr
      (digitsOf_ne_nil (shortest displayNotation.tie significand exponent).digits)
    have few : t ≤ 20 := by
      change _ ≤ (20 : Int) + 1 at short
      omega
    have reached : 10 ^ t ≤ 10 ^ 21 := Nat.pow_le_pow_right (by decide) (by omega)
    have half := le_twice_written high displayNotation.tie places (Nat.le_trans reached large)
    have digits : ∀ c ∈ displayNotation.write significand exponent, isDigit c = true := by
      intro c mem
      rw [written] at mem
      rcases List.mem_append.mp mem with digit | zero
      · exact isDigit_of_mem_toDigits digit
      · obtain rfl := List.eq_of_mem_replicate zero
        rfl
    have value : digitsValue (displayNotation.write significand exponent) =
        (shortest displayNotation.tie significand exponent).digits * 10 ^ t := by
      rw [written, digitsValue_append_zeros]
      exact congrArg (· * 10 ^ t) (digitsValue_toDigits _)
    obtain ⟨first, rest, starts, _⟩ := write_starts displayNotation significand exponent
    have nonempty : displayNotation.write significand exponent ≠ [] := by
      rw [starts]
      exact List.cons_ne_nil first rest
    rw [int64?_withSign negative nonempty digits, value, Option.filter_some, fitsInt64_large]
    · rfl
    · omega

end

/-- The text of a displayed number is read as the integer that the number is, if it is one and has
64 bits, and else as none. -/
theorem int64?_display (x : Float) :
    int64? (Text.trim (display x).toList) =
      (truncated? x).filter fun i => isWhole x && fitsInt64 i := by
  unfold display truncated? isWhole
  rw [String.toList_ofList]
  cases parts : binary x with
  | nan =>
    show int64? (Text.trim (withSign false "NaN".toList)) = none
    exact int64?_other (c := 'N') List.mem_cons_self (by decide) (by decide) (by decide)
  | infinite negative =>
    exact int64?_other (c := 'I') List.mem_cons_self (by decide) (by decide) (by decide)
  | finite negative m e =>
    have few := significand_lt parts
    dsimp only
    rw [Option.filter_some]
    by_cases zero : m = 0
    · have none : signed negative (wholePart m e) = 0 := by
        subst zero
        unfold wholePart
        rw [Nat.zero_mul, Nat.zero_div]
        cases negative <;> rfl
      have whole : hasFraction m e = false := by
        subst zero
        unfold hasFraction
        rw [Nat.zero_mod]
        rfl
      rw [if_pos zero, none, whole]
      rfl
    · rw [if_neg zero]
      cases fraction : hasFraction m e with
      | true =>
        exact int64?_write_fraction fraction few
      | false =>
        by_cases small : wholePart m e < power 10 21
        · rw [if_pos (by simpa using small), int64?_withSign negative (digitsOf_ne_nil _)
            fun c => isDigit_of_mem_toDigits, Option.filter_some]
          rw [show digitsValue (digitsOf (wholePart m e)) = wholePart m e from
            digitsValue_toDigits _]
          rfl
        · have large : 10 ^ 21 ≤ wholePart m e := Nat.not_lt.mp small
          -- a significand alone is not so large
          have high : 0 ≤ e := Int.not_lt.mp fun low => by
            unfold wholePart at large
            rw [power_of_nonpos 2 (Int.le_of_lt low), Nat.mul_one] at large
            have := Nat.le_trans large (Nat.div_le_self _ _)
            unfold binade at few
            omega
          have value : wholePart m e = m * power 2 e := by
            unfold wholePart
            rw [power_of_nonpos 2 (Int.neg_nonpos_of_nonneg high), Nat.div_one]
          have outside : fitsInt64 (signed negative (wholePart m e)) = false :=
            fitsInt64_large (by omega)
          rw [if_neg (by simpa using small), int64?_write_large high (value ▸ large), outside]
          rfl

theorem display_starts (x : Float) :
    ∃ negative first rest, (display x).toList = withSign negative (first :: rest) ∧
      (isDigit first = true ∨ first = 'N' ∨ first = 'I') := by
  unfold display
  rw [String.toList_ofList]
  cases binary x with
  | nan => exact ⟨false, _, _, rfl, .inr (.inl rfl)⟩
  | infinite negative => exact ⟨negative, _, _, rfl, .inr (.inr rfl)⟩
  | finite negative m e =>
    dsimp only
    split
    · exact ⟨false, '0', _, rfl, .inl rfl⟩
    · split
      · obtain ⟨first, rest, digits⟩ := List.exists_cons_of_ne_nil (digitsOf_ne_nil (wholePart m e))
        rw [digits]
        refine ⟨negative, first, rest, rfl, .inl ?_⟩
        refine isDigit_of_mem_toDigits (n := wholePart m e) ?_
        rw [show Nat.toDigits 10 _ = first :: rest from digits]
        exact List.mem_cons_self
      · obtain ⟨first, rest, starts, digit⟩ := write_starts displayNotation m e
        rw [starts]
        exact ⟨negative, first, rest, rfl, .inl digit⟩

end Number

theorem Instruction.parse_of_starts {s : String} {negative : Bool} {first : Char}
    {rest : List Char} (shown : s.toList = Number.withSign negative (first :: rest))
    (starts : Number.isDigit first = true ∨ first = 'N' ∨ first = 'I') :
    Instruction.parse s = .key s := by
  refine Instruction.parse_eq_iff.mpr ⟨rfl, ?_, fun op assign spelled => ?_⟩
  · rw [shown]
    cases negative with
    | true => simp [Number.withSign]
    | false =>
      rintro hash
      obtain rfl := Option.some.inj hash
      revert starts
      decide
  · -- an operator goes on with no digit or capital letter, even where it looks like a sign
    rw [spelled] at shown
    cases op <;> cases assign <;> cases negative <;>
      simp [Operator.symbol, mark, Number.withSign] at shown <;>
      (obtain ⟨rfl, _⟩ := shown) <;> revert starts <;> decide

theorem Instruction.parse_display (x : Float) :
    Instruction.parse (Number.display x) = .key (Number.display x) := by
  obtain ⟨negative, first, rest, shown, starts⟩ := Number.display_starts x
  exact parse_of_starts shown starts

end Accessors
