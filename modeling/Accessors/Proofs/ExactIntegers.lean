import Accessors.Proofs.Doubles
import Mathlib.Algebra.Ring.Nat

/-! Integers in doubles. An integer up to the greatest safe one goes into a double without
rounding: it is finite, casting it back to 64 bits gives the integer again, and neither adding
nor subtracting zero changes it. -/

namespace Accessors.Number

open Float.Model Float.Model.UnpackedFloat

theorem signed_natAbs (i : Int) : signed (decide (i < 0)) i.natAbs = i := by
  unfold signed
  split <;> rename_i negative <;> simp only [decide_eq_true_eq] at negative <;> omega

theorem natAbs_signed (negative : Bool) (n : Nat) : (signed negative n).natAbs = n := by
  cases negative with
  | false => rfl
  | true => exact Int.natAbs_neg n

theorem toBits_ofBits {b : UInt64} (ordinary : b.toNat / binade % 2048 ≠ 2047) :
    (Float.ofBits b).toBits = b := by
  have valid : Format.binary64.Valid b.toBitVec := ⟨fun special _ => by
    have exponent := toNat_unpackExponent b.toBitVec
    rw [special] at exponent
    exact absurd exponent.symm ordinary⟩
  exact UInt64.toBitVec_inj.mp (pack_unpack valid)

section
variable {n : Nat}

theorem log2_le_of_safe (safe : n ≤ greatestSafe) : n.log2 ≤ 52 := by
  by_cases zero : n = 0
  · rw [zero]
    decide
  · have lt : n.log2 < 53 := (Nat.log2_lt zero).mpr (Nat.lt_of_le_of_lt safe (by decide))
    omega

theorem normal_of_safe (nonzero : n ≠ 0) (safe : n ≤ greatestSafe) :
    binade ≤ n * 2 ^ (52 - n.log2) ∧ n * 2 ^ (52 - n.log2) < 2 * binade := by
  have few := log2_le_of_safe safe
  have split : ∀ k, n.log2 + k + (52 - n.log2) = 52 + k := by omega
  obtain ⟨least, greatest⟩ := (Nat.log2_eq_iff nonzero).mp rfl
  constructor
  · calc binade = 2 ^ n.log2 * 2 ^ (52 - n.log2) := by
          rw [← Nat.pow_add, show n.log2 + (52 - n.log2) = 52 from split 0]
          rfl
      _ ≤ _ := Nat.mul_le_mul_right _ least
  · calc _ < 2 ^ (n.log2 + 1) * 2 ^ (52 - n.log2) :=
          Nat.mul_lt_mul_of_pos_right greatest (Nat.two_pow_pos _)
      _ = 2 * binade := by
          rw [← Nat.pow_add, split 1]
          rfl

theorem roundedBits_of_safe (nonzero : n ≠ 0) (safe : n ≤ greatestSafe) :
    roundedBits n 1 = (n.log2 + 1022) * binade + n * 2 ^ (52 - n.log2) := by
  have few := log2_le_of_safe safe
  have up : power 2 (-((n.log2 : Int) - 52)) = 2 ^ (52 - n.log2) := by
    unfold power
    rw [show (-((n.log2 : Int) - 52)).toNat = 52 - n.log2 by omega]
    rfl
  have down : power 2 ((n.log2 : Int) - 52) = 1 := by
    unfold power
    rw [show ((n.log2 : Int) - 52).toNat = 0 by omega]
  have value : n * power 2 (-((n.log2 : Int) - 52)) =
      n * 2 ^ (52 - n.log2) * power 2 ((n.log2 : Int) - 52) := by
    rw [up, down, Nat.mul_one]
  have exponent : ((n.log2 : Int) - 52 + 1074).toNat = n.log2 + 1022 := by omega
  rw [roundedBits_of_normal (normal_of_safe nonzero safe) (by omega) value, exponent]

end

section
variable {n : Int}

theorem toNat_toBits_ofInt (nonzero : n ≠ 0) (safe : n.natAbs ≤ greatestSafe) :
    (ofInt n).toBits.toNat = signBit (decide (n < 0)) +
      ((n.natAbs.log2 + 1022) * binade + n.natAbs * 2 ^ (52 - n.natAbs.log2)) := by
  have few := log2_le_of_safe safe
  have normal := normal_of_safe (by omega) safe
  have rounds := roundedBits_of_safe (show n.natAbs ≠ 0 by omega) safe
  have sign : signBit (decide (n < 0)) = 0 ∨ signBit (decide (n < 0)) = 2048 * binade := by
    cases decide (n < 0)
    · exact .inl rfl
    · exact .inr rfl
  have word : (UInt64.ofNat (signBit (decide (n < 0)) + roundedBits n.natAbs 1)).toNat =
      signBit (decide (n < 0)) + roundedBits n.natAbs 1 := by
    refine UInt64.toNat_ofNat_of_lt' ?_
    rw [rounds]
    unfold binade at *
    change _ < 18446744073709551616
    omega
  unfold ofInt ofSigned rounded
  rw [toBits_ofBits, word, rounds]
  rw [word, rounds]
  unfold binade at *
  omega

theorem signBit_decide (negative : Prop) [Decidable negative] :
    signBit (decide negative) = if negative then 2048 * binade else 0 := by
  by_cases h : negative <;> simp [h, signBit, leastNegative, binade]

theorem exponent_ofInt (nonzero : n ≠ 0) (safe : n.natAbs ≤ greatestSafe) :
    (ofInt n).toBits.toNat / binade % 2048 = n.natAbs.log2 + 1023 := by
  have few := log2_le_of_safe safe
  have normal := normal_of_safe (by omega) safe
  rw [toNat_toBits_ofInt nonzero safe, signBit_decide]
  unfold binade at *
  split <;> omega

theorem binary_ofInt (nonzero : n ≠ 0) (safe : n.natAbs ≤ greatestSafe) :
    binary (ofInt n) = .finite (decide (n < 0)) (n.natAbs * 2 ^ (52 - n.natAbs.log2))
      ((n.natAbs.log2 : Int) - 52) := by
  have few := log2_le_of_safe safe
  have normal := normal_of_safe (by omega) safe
  have bits := toNat_toBits_ofInt nonzero safe
  rw [signBit_decide] at bits
  have fraction : binade + (ofInt n).toBits.toNat % binade =
      n.natAbs * 2 ^ (52 - n.natAbs.log2) := by
    rw [bits]
    unfold binade at *
    split <;> omega
  have negative : decide (leastNegative ≤ (ofInt n).toBits.toNat) = decide (n < 0) := by
    rw [bits, decide_eq_decide]
    unfold leastNegative binade at *
    split <;> omega
  have exponent : ((n.natAbs.log2 + 1023 : Nat) : Int) - 1075 = (n.natAbs.log2 : Int) - 52 := by
    omega
  unfold binary
  dsimp only
  rw [exponent_ofInt nonzero safe, fraction, negative, if_neg (by omega), if_neg (by omega),
    exponent]

theorem isFinite_ofInt (safe : n.natAbs ≤ greatestSafe) : isFinite (ofInt n) = true := by
  by_cases zero : n = 0
  · rw [zero]
    rfl
  · unfold isFinite
    rw [binary_ofInt zero safe]

theorem wholePart_of_safe {size : Nat} (safe : size ≤ greatestSafe) :
    wholePart (size * 2 ^ (52 - size.log2)) ((size.log2 : Int) - 52) = size := by
  have few := log2_le_of_safe safe
  unfold wholePart power
  rw [show ((size.log2 : Int) - 52).toNat = 0 by omega,
    show (-((size.log2 : Int) - 52)).toNat = 52 - size.log2 by omega]
  exact (congrArg (· / _) (Nat.mul_one _)).trans (Nat.mul_div_cancel _ (Nat.two_pow_pos _))

theorem hasFraction_of_safe {size : Nat} (safe : size ≤ greatestSafe) :
    hasFraction (size * 2 ^ (52 - size.log2)) ((size.log2 : Int) - 52) = false := by
  have few := log2_le_of_safe safe
  unfold hasFraction power
  rw [show (-((size.log2 : Int) - 52)).toNat = 52 - size.log2 by omega]
  simp

theorem toInt64_ofInt (safe : n.natAbs ≤ greatestSafe) : toInt64 (ofInt n) = n := by
  by_cases zero : n = 0
  · rw [zero]
    decide +kernel
  · unfold toInt64
    rw [binary_ofInt zero safe]
    dsimp only
    rw [wholePart_of_safe safe, signed_natAbs]
    unfold greatestSafe at safe
    unfold leastInt64 greatestInt64
    omega

theorem safeInteger?_ofInt (safe : n.natAbs ≤ greatestSafe) : safeInteger? (ofInt n) = some n := by
  by_cases zero : n = 0
  · rw [zero]
    decide +kernel
  · unfold safeInteger?
    rw [binary_ofInt zero safe]
    dsimp only
    rw [hasFraction_of_safe safe, wholePart_of_safe safe, signed_natAbs]
    simp [safe]

end

theorem minus_zero (x : Float) : x - 0 = x := by
  have zero : (0 : Float).toModel.unpack = .zero .positive := rfl
  have same : UnpackedFloat.sub Format.binary64 x.toModel.unpack (.zero .positive) =
      x.toModel.unpack := by
    cases x.toModel.unpack with
    | zero sign => cases sign <;> rfl
    | _ => rfl
  show Float.ofModel (Float.Model.pack (UnpackedFloat.sub Format.binary64 _ _)) = x
  rw [zero, same]
  exact ofBits_toBits x

theorem plus_zero {x : Float} (positive : x.toModel.unpack ≠ .zero .negative) : x + 0 = x := by
  have zero : (0 : Float).toModel.unpack = .zero .positive := rfl
  have same : UnpackedFloat.add Format.binary64 x.toModel.unpack (.zero .positive) =
      x.toModel.unpack := by
    cases parts : x.toModel.unpack with
    | zero sign =>
      cases sign with
      | positive => rfl
      | negative => exact absurd parts positive
    | _ => rfl
  show Float.ofModel (Float.Model.pack (UnpackedFloat.add Format.binary64 _ _)) = x
  rw [zero, same]
  exact ofBits_toBits x

theorem unpack_ne_zero {b : Bits} (normal : b.toNat / binade % 2048 ≠ 0) (sign : Sign) :
    UnpackedFloat.unpack Format.binary64 b ≠ .zero sign := by
  intro eq
  have exponent := toNat_unpackExponent b
  have some : ¬ unpackExponent b = 0#11 := fun none => by
    rw [none] at exponent
    exact normal exponent.symm
  unfold UnpackedFloat.unpack at eq
  dsimp only at eq
  by_cases special : unpackExponent b = -1#11
  · rw [if_pos special] at eq
    by_cases infinite : unpackMantissa b = 0#52
    · rw [if_pos infinite] at eq
      cases eq
    · rw [if_neg infinite] at eq
      cases eq
  · rw [if_neg special, if_neg some] at eq
    cases eq

theorem ofInt_add_zero {n : Int} (safe : n.natAbs ≤ greatestSafe) : ofInt n + 0 = ofInt n := by
  by_cases zero : n = 0
  · rw [zero]
    rfl
  · refine plus_zero (unpack_ne_zero (b := (ofInt n).toBits.toBitVec) (fun none => ?_) .negative)
    change (ofInt n).toBits.toNat / binade % 2048 = 0 at none
    rw [exponent_ofInt zero safe] at none
    cases none

end Accessors.Number
