import Accessors.Number.Reading
import Accessors.Proofs.ExactIntegers
import Mathlib.Data.List.TakeWhile

/-! Whole doubles. What drops a fraction leaves a whole double alone and makes one of every
finite double, and an integer of any size goes into a whole double unless it is so large that
it becomes infinite: a double with an exponent that large has no places below the units. So
the integer that a text starts with is whole, infinite or not a number at all. -/

namespace Accessors.Number

section
variable {x : Float}

theorem significand_lt {negative : Bool} {significand : Nat} {exponent : Int}
    (parts : binary x = .finite negative significand exponent) : significand < 2 * binade := by
  have fraction := Nat.mod_lt x.toBits.toNat (show 0 < binade by decide)
  obtain ⟨_, _, ⟨_, rfl, _⟩ | ⟨_, rfl, _⟩⟩ := binary_finite parts <;> omega

theorem isFinite_of_isWhole (whole : isWhole x = true) : isFinite x = true := by
  unfold isWhole at whole
  unfold isFinite
  cases parts : binary x with
  | finite negative significand exponent => rfl
  | _ =>
    rw [parts] at whole
    cases whole

theorem truncate_of_isWhole (whole : isWhole x = true) : truncate x = x := by
  unfold isWhole at whole
  unfold truncate
  cases parts : binary x with
  | finite negative significand exponent =>
    rw [parts] at whole
    have none : hasFraction significand exponent = false := by simpa using whole
    simp only [none, Bool.false_eq_true, if_false]
  | _ => rfl

theorem hasFraction_of_nonneg {exponent : Int} (nonneg : 0 ≤ exponent) (significand : Nat) :
    hasFraction significand exponent = false := by
  unfold hasFraction
  rw [power_of_nonpos 2 (Int.neg_nonpos_of_nonneg nonneg), Nat.mod_one, bne_self_eq_false]

theorem isWhole_of_exponent (large : 1075 ≤ x.toBits.toNat / binade % 2048)
    (ordinary : x.toBits.toNat / binade % 2048 ≠ 2047) : isWhole x = true := by
  have nonneg : 0 ≤ ((x.toBits.toNat / binade % 2048 : Nat) : Int) - 1075 := by omega
  unfold isWhole binary
  dsimp only
  rw [if_neg ordinary, if_neg (by omega)]
  simp only [hasFraction_of_nonneg nonneg, Bool.not_false]

end

section
variable {n : Nat}

theorem isWhole_rounded_of_safe (negative : Bool) (safe : n ≤ greatestSafe) :
    isWhole (rounded negative n 1) = true := by
  by_cases zero : n = 0
  · subst zero
    cases negative <;> decide +kernel
  · have size := natAbs_signed negative n
    have parts := binary_ofInt (n := signed negative n) (by omega) (by omega)
    rw [ofInt_signed negative zero, size] at parts
    unfold isWhole
    rw [parts]
    simp only [hasFraction_of_safe safe, Bool.not_false]

theorem roundedBits_of_large (large : greatestSafe < n) : 1075 * binade ≤ roundedBits n 1 := by
  have positive : n ≠ 0 := by
    rintro rfl
    cases large
  have log : 53 ≤ n.log2 := (Nat.le_log2 positive).mpr (show 2 ^ 53 ≤ n from large)
  have place : 1075 ≤ (lastPlace n 1 + 1074).toNat := by
    rw [lastPlace_one positive]
    omega
  unfold roundedBits
  rw [if_neg positive]
  dsimp only
  refine Nat.le_min.mpr ⟨by decide, ?_⟩
  exact Nat.le_trans (Nat.mul_le_mul_right _ place) (Nat.le_add_right _ _)

theorem toNat_toBits_rounded {denominator : Nat} (ordinary : roundedBits n denominator ≠ infinityBits)
    (negative : Bool) :
    (rounded negative n denominator).toBits.toNat =
        signBit negative + roundedBits n denominator ∧
      (signBit negative + roundedBits n denominator) / binade % 2048 =
        roundedBits n denominator / binade ∧
      roundedBits n denominator / binade < 2047 := by
  have bound := roundedBits_le n denominator
  have sign : signBit negative = 0 ∨ signBit negative = 2048 * binade := by
    cases negative
    · exact .inl rfl
    · exact .inr rfl
  have word : (UInt64.ofNat (signBit negative + roundedBits n denominator)).toNat =
      signBit negative + roundedBits n denominator := by
    refine UInt64.toNat_ofNat_of_lt' ?_
    change _ < 18446744073709551616
    unfold infinityBits binade at *
    omega
  have exponent : (signBit negative + roundedBits n denominator) / binade % 2048 =
      roundedBits n denominator / binade ∧ roundedBits n denominator / binade < 2047 := by
    unfold infinityBits binade at *
    omega
  refine ⟨?_, exponent⟩
  unfold rounded
  rw [toBits_ofBits (by rw [word]; omega), word]

theorem rounded_whole_or_infinite (negative : Bool) (n : Nat) :
    isWhole (rounded negative n 1) = true ∨ rounded negative n 1 = infinite negative := by
  by_cases safe : n ≤ greatestSafe
  · exact .inl (isWhole_rounded_of_safe negative safe)
  by_cases most : roundedBits n 1 = infinityBits
  · right
    unfold rounded infinite
    rw [most]
  · left
    have least := roundedBits_of_large (Nat.not_le.mp safe)
    obtain ⟨bits, exponent, ordinary⟩ := toNat_toBits_rounded most negative
    refine isWhole_of_exponent ?_ ?_
    · rw [bits, exponent]
      exact (Nat.le_div_iff_mul_le (by decide)).mpr least
    · rw [bits, exponent]
      exact Nat.ne_of_lt ordinary

end

theorem isWhole_truncate {x : Float} (finite : isFinite x = true) :
    isWhole (truncate x) = true := by
  obtain ⟨negative, significand, exponent, parts⟩ := exists_of_isFinite finite
  cases fraction : hasFraction significand exponent with
  | false =>
    have whole : isWhole x = true := by
      unfold isWhole
      rw [parts]
      simp only [fraction, Bool.not_false]
    rw [truncate_of_isWhole whole, whole]
  | true =>
    have shifted : exponent < 0 := Int.not_le.mp fun nonneg => by
      rw [hasFraction_of_nonneg nonneg] at fraction
      cases fraction
    have few : wholePart significand exponent ≤ greatestSafe := by
      have normal := significand_lt parts
      unfold wholePart
      rw [power_of_nonpos 2 (Int.le_of_lt shifted), Nat.mul_one]
      exact Nat.le_trans (Nat.div_le_self _ _) (Nat.le_of_lt_succ normal)
    have dropped : truncate x = rounded negative (wholePart significand exponent) 1 := by
      unfold truncate
      rw [parts]
      simp only [fraction, if_true]
      rfl
    rw [dropped, isWhole_rounded_of_safe negative few]

theorem nearest_integer (negative : Bool) (n : Nat) :
    nearest negative n 0 = rounded negative n 1 := by
  have units : n * power 10 0 = n := Nat.mul_one n
  have most : ¬ (330 : Int) < 0 := by decide
  unfold nearest
  rw [Int.mul_zero, if_neg most, units]
  split
  · rename_i none
    obtain rfl : n = 0 := none.resolve_right (by omega)
    rfl
  · rfl

theorem takeSign_of_digit {first : Char} (digit : isDigit first = true) (rest : List Char) :
    takeSign (first :: rest) = (false, first :: rest) := by
  unfold takeSign
  split
  · rename_i minus
    obtain rfl := (List.cons.inj minus).1
    cases digit
  · rename_i plus
    obtain rfl := (List.cons.inj plus).1
    cases digit
  · rfl

theorem leadingInteger_digits {first : Char} {rest : List Char}
    (digits : ∀ c ∈ first :: rest, isDigit c = true) :
    leadingInteger (String.ofList (first :: rest)) =
      rounded false (digitsValue (first :: rest)) 1 := by
  have digit := digits first List.mem_cons_self
  unfold leadingInteger
  rw [String.toList_ofList, Text.trimLeft_eq_self (isBlank_of_isDigit digit),
    takeSign_of_digit digit]
  dsimp only
  rw [List.takeWhile_eq_self_iff.mpr digits, if_neg (List.cons_ne_nil first rest), nearest_integer]

theorem leadingInteger_cases (s : String) :
    leadingInteger s = nan ∨ isWhole (leadingInteger s) = true ∨
      ∃ negative, leadingInteger s = infinite negative := by
  unfold leadingInteger
  dsimp only
  split
  · exact .inl rfl
  · rw [nearest_integer]
    exact .inr ((rounded_whole_or_infinite _ _).imp_right fun infinite => ⟨_, infinite⟩)

end Accessors.Number
