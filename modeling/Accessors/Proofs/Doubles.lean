import Accessors.Number.Binary

/-! Doubles as bits. A double is packed from the parts it unpacks to, so an integer that is
exactly a double rounds to it. Main statements: equality of doubles is symmetric and transitive,
a finite double is equal to itself, and one that is a safe integer is equal to the double nearest
to that integer. -/

namespace Accessors.Number

open Float.Model Float.Model.UnpackedFloat

abbrev Bits := BitVec Format.binary64.numBits

section
variable (b : Bits)

theorem toNat_unpackExponent : (unpackExponent b).toNat = b.toNat / binade % 2048 := by
  show (BitVec.extractLsb 62 52 b).toNat = _
  rw [BitVec.extractLsb_toNat, Nat.shiftRight_eq_div_pow]
  rfl

theorem toNat_unpackMantissa : (unpackMantissa b).toNat = b.toNat % binade := by
  show (BitVec.extractLsb 51 0 b).toNat = _
  rw [BitVec.extractLsb_toNat, Nat.shiftRight_zero]
  rfl

theorem append_extractLsb (b : BitVec 64) :
    (BitVec.extractLsb 63 63 b ++ BitVec.extractLsb 62 52 b ++ BitVec.extractLsb 51 0 b :
      BitVec 64) = b := by
  refine BitVec.eq_of_getLsbD_eq fun i lt => ?_
  have same : (BitVec.extractLsb 63 63 b ++ BitVec.extractLsb 62 52 b ++
      BitVec.extractLsb 51 0 b).getLsbD i = b.getLsbD i := by
    simp only [BitVec.getLsbD_append, BitVec.getLsbD_extractLsb]
    by_cases low : i < 52
    · simp [low]
    · by_cases middle : i < 63
      · simp [low, show i - 52 < 11 by omega, show 52 + (i - 52) = i by omega]
      · simp [show i = 63 by omega]
  exact same

theorem packComponents_unpacked {b : Bits} {exponent : BitVec Format.binary64.exponentBits}
    {mantissa : BitVec Format.binary64.mantissaBitsWithoutImplicit}
    (atExponent : unpackExponent b = exponent) (atMantissa : unpackMantissa b = mantissa) :
    packComponents Format.binary64 (Sign.ofBitVec (unpackSign b)) exponent mantissa = b := by
  have sign (v : BitVec 1) : (Sign.ofBitVec v).toBitVec = v := by
    revert v
    decide
  subst atExponent atMantissa
  unfold packComponents
  rw [sign]
  exact append_extractLsb b

theorem bias_add (exponent : Nat) :
    ((exponent : Int) - (Format.binary64.exponentBias + (52 : Nat)) +
      Format.binary64.exponentBias + (52 : Nat)).toNat = exponent := by
  omega

theorem toNat_significand (mantissa : BitVec 52) :
    (1#1 ++ mantissa).toNat = binade + mantissa.toNat := by
  rw [BitVec.toNat_append, ← Nat.shiftLeft_add_eq_or_of_lt mantissa.isLt]
  rfl

theorem log2_significand (mantissa : BitVec 52) : (1#1 ++ mantissa).toNat.log2 = 52 := by
  have lt := mantissa.isLt
  have positive : 0 < binade := by decide
  rw [toNat_significand, Nat.log2_eq_iff (by omega)]
  unfold binade
  omega

theorem pack_unpack {b : Bits} (valid : Format.binary64.Valid b) :
    UnpackedFloat.pack Format.binary64 (UnpackedFloat.unpack Format.binary64 b) = b := by
  have mantissaLt : (unpackMantissa b).toNat < 2 ^ 52 := (unpackMantissa b).isLt
  have same : BitVec.ofNat 52 (unpackMantissa b).toNat = unpackMantissa b :=
    (BitVec.ofNat_toNat 52 _).trans (BitVec.setWidth_eq _)
  unfold UnpackedFloat.unpack
  dsimp only
  by_cases special : unpackExponent b = -1#11
  · rw [if_pos special]
    by_cases none : unpackMantissa b = 0#52
    · rw [if_pos none]
      exact packComponents_unpacked special none
    · rw [if_neg none]
      exact (valid.eq_packedNaN special none).symm
  · rw [if_neg special]
    by_cases least : unpackExponent b = 0#11
    · rw [if_pos least]
      by_cases none : unpackMantissa b = 0#52
      · rw [dif_pos none]
        exact packComponents_unpacked least none
      · -- A subnormal significand does not reach the implicit bit.
        have positive : (unpackMantissa b).toNat ≠ 0 := fun eq =>
          none (BitVec.eq_of_toNat_eq eq)
        have short : (unpackMantissa b).toNat.log2 < 52 := (Nat.log2_lt positive).mpr mantissaLt
        rw [dif_neg none]
        unfold UnpackedFloat.pack
        dsimp only
        rw [least, if_neg (by decide), if_neg (by
          show ¬ (unpackMantissa b).toNat.log2 + 1 = 53
          omega)]
        exact packComponents_unpacked least same.symm
    · have exponentLt := (unpackExponent b).isLt
      have other : (unpackExponent b).toNat ≠ 2 ^ 11 - 1 := fun eq =>
        special (BitVec.eq_of_toNat_eq eq)
      rw [if_neg least]
      unfold UnpackedFloat.pack
      dsimp only
      rw [log2_significand, bias_add, if_neg (by
        show ¬ 2 ^ 11 ≤ (unpackExponent b).toNat + 1
        change (unpackExponent b).toNat < 2 ^ 11 at exponentLt
        omega), if_pos (show 52 + 1 = Format.binary64.mantissaBits from rfl)]
      refine packComponents_unpacked ?_ ?_
      · exact ((BitVec.ofNat_toNat 11 _).trans (BitVec.setWidth_eq _)).symm
      · rw [toNat_significand, ← BitVec.ofNat_add_ofNat, same]
        exact (BitVec.zero_add _).symm

end

theorem ofBits_toBits (x : Float) : Float.ofBits x.toBits = x := by
  obtain ⟨bits, valid⟩ := x
  have packed := pack_unpack valid
  show Float.ofModel (Float.Model.pack (UnpackedFloat.unpack Format.binary64 bits.toBitVec)) = _
  unfold Float.Model.pack
  congr

theorem ofBits_ofNat_toBits (x : Float) : Float.ofBits (.ofNat x.toBits.toNat) = x := by
  rw [UInt64.ofNat_toNat, ofBits_toBits]

theorem binary_finite {x : Float} {negative : Bool} {significand : Nat} {exponent : Int}
    (parts : binary x = .finite negative significand exponent) :
    negative = decide (leastNegative ≤ x.toBits.toNat) ∧
      x.toBits.toNat / binade % 2048 < 2047 ∧
      (x.toBits.toNat / binade % 2048 = 0 ∧ significand = x.toBits.toNat % binade ∧
          exponent = -1074 ∨
        0 < x.toBits.toNat / binade % 2048 ∧ significand = binade + x.toBits.toNat % binade ∧
          exponent = (x.toBits.toNat / binade % 2048 : Nat) - 1075) := by
  have bound : x.toBits.toNat / binade % 2048 < 2048 := Nat.mod_lt _ (by omega)
  unfold binary at parts
  dsimp only at parts
  split at parts
  · split at parts <;> cases parts
  · split at parts
    · cases parts
      exact ⟨rfl, by omega, .inl ⟨by assumption, rfl, rfl⟩⟩
    · cases parts
      exact ⟨rfl, by omega, .inr ⟨by omega, rfl, rfl⟩⟩

theorem exists_of_isFinite {x : Float} (finite : isFinite x = true) :
    ∃ negative significand exponent, binary x = .finite negative significand exponent := by
  unfold isFinite at finite
  split at finite
  · exact ⟨_, _, _, by assumption⟩
  · cases finite

def signOf (negative : Bool) : Sign :=
  if negative then .negative else .positive

def Binary.unpacked : Binary → UnpackedFloat
  | .nan => .notANumber
  | .infinite negative => .infinity (signOf negative)
  | .finite negative significand exponent =>
    if some : significand = 0 then .zero (signOf negative)
    else .finite (signOf negative) significand exponent (Nat.pos_of_ne_zero some)

section
variable {negative : Bool} {significand : Nat} {exponent : Int}

theorem Binary.unpacked_zero :
    (Binary.finite negative 0 exponent).unpacked = .zero (signOf negative) := rfl

theorem Binary.unpacked_finite (some : significand ≠ 0) :
    (Binary.finite negative significand exponent).unpacked =
      .finite (signOf negative) significand exponent (Nat.pos_of_ne_zero some) :=
  dif_neg some

end

theorem sign_unpacked (b : Bits) :
    Sign.ofBitVec (unpackSign b) = signOf (decide (leastNegative ≤ b.toNat)) := by
  have value : (unpackSign b).toNat = b.toNat / leastNegative % 2 := by
    show (BitVec.extractLsb 63 63 b).toNat = _
    rw [BitVec.extractLsb_toNat, Nat.shiftRight_eq_div_pow]
    rfl
  have bound : b.toNat < 2 ^ 64 := b.isLt
  by_cases negative : leastNegative ≤ b.toNat
  · have one : unpackSign b = 1#1 := BitVec.eq_of_toNat_eq (by
      rw [value]
      show _ = 1
      unfold leastNegative at *
      omega)
    rw [one, decide_eq_true negative]
    rfl
  · have zero : unpackSign b = 0#1 := BitVec.eq_of_toNat_eq (by
      rw [value]
      show _ = 0
      unfold leastNegative at *
      omega)
    rw [zero, decide_eq_false negative]
    rfl

theorem finite_congr {sign : Sign} {m m' : Nat} {e e' : Int} {some : 0 < m} {some' : 0 < m'}
    (significand : m = m') (exponent : e = e') :
    UnpackedFloat.finite sign m e some = .finite sign m' e' some' := by
  subst significand exponent
  rfl

theorem unpack_eq (x : Float) : x.toModel.unpack = (binary x).unpacked := by
  obtain ⟨b, bits⟩ : ∃ b : Bits, b = x.toBits.toBitVec := ⟨_, rfl⟩
  have word : x.toBits.toNat = b.toNat := by
    rw [bits]
    rfl
  have same : x.toModel.unpack = UnpackedFloat.unpack Format.binary64 b := by
    rw [bits]
    rfl
  have none : unpackMantissa b = 0#52 ↔ b.toNat % binade = 0 := by
    rw [← toNat_unpackMantissa, ← BitVec.toNat_inj]
    rfl
  have special : unpackExponent b = -1#11 ↔ b.toNat / binade % 2048 = 2047 := by
    rw [← toNat_unpackExponent, ← BitVec.toNat_inj]
    rfl
  have least : unpackExponent b = 0#11 ↔ b.toNat / binade % 2048 = 0 := by
    rw [← toNat_unpackExponent, ← BitVec.toNat_inj]
    rfl
  unfold binary
  rw [same, word]
  unfold UnpackedFloat.unpack
  dsimp only
  rw [sign_unpacked]
  by_cases infinite : b.toNat / binade % 2048 = 2047
  · rw [if_pos (special.mpr infinite), if_pos infinite]
    by_cases exact : b.toNat % binade = 0
    · rw [if_pos (none.mpr exact), if_pos exact]
      rfl
    · rw [if_neg (mt none.mp exact), if_neg exact]
      rfl
  · rw [if_neg (mt special.mp infinite), if_neg infinite]
    by_cases subnormal : b.toNat / binade % 2048 = 0
    · rw [if_pos (least.mpr subnormal), if_pos subnormal]
      by_cases zero : b.toNat % binade = 0
      · rw [dif_pos (none.mpr zero), zero, Binary.unpacked_zero]
      · rw [dif_neg (mt none.mp zero), Binary.unpacked_finite zero]
        refine finite_congr (toNat_unpackMantissa b) ?_
        rw [least.mpr subnormal]
        rfl
    · rw [if_neg (mt least.mp subnormal), if_neg subnormal]
      rw [Binary.unpacked_finite (by unfold binade; omega)]
      refine finite_congr ((toNat_significand _).trans ?_) ?_
      · rw [toNat_unpackMantissa]
      · rw [toNat_unpackExponent]
        rfl

theorem isNaN_iff {x : Float} : x.isNaN = true ↔ binary x = .nan := by
  show x.toModel.unpack.isNaN = true ↔ _
  rw [unpack_eq]
  cases binary x with
  | nan => exact iff_of_true rfl rfl
  | infinite negative => exact iff_of_false Bool.false_ne_true (by rintro ⟨⟩)
  | finite negative significand exponent =>
    refine iff_of_false (fun number => ?_) (by rintro ⟨⟩)
    by_cases zero : significand = 0
    · rw [zero, Binary.unpacked_zero] at number
      cases number
    · rw [Binary.unpacked_finite zero] at number
      cases number

theorem unpack_of_isFinite {x : Float} (finite : isFinite x = true) :
    x.toModel.unpack ≠ .notANumber := by
  obtain ⟨_, significand, _, parts⟩ := exists_of_isFinite finite
  rw [unpack_eq, parts]
  by_cases zero : significand = 0
  · rw [zero, Binary.unpacked_zero]
    rintro ⟨⟩
  · rw [Binary.unpacked_finite zero]
    rintro ⟨⟩

def Binary.Nonneg : Binary → Prop
  | .nan => False
  | .infinite negative => negative = false
  | .finite negative significand _ => negative = false ∨ significand = 0

theorem zero_le_iff {x : Float} : 0 ≤ x ↔ (binary x).Nonneg := by
  show decide ((0 : Float).toModel.unpack.le x.toModel.unpack = true) = true ↔ _
  have zero : (0 : Float).toModel.unpack = .zero .positive := rfl
  rw [zero, unpack_eq, decide_eq_true_eq]
  cases binary x with
  | nan => exact iff_of_false (by rintro ⟨⟩) id
  | infinite negative =>
    cases negative with
    | false => exact iff_of_true rfl rfl
    | true => exact iff_of_false (by rintro ⟨⟩) (by rintro ⟨⟩)
  | finite negative significand exponent =>
    unfold Binary.Nonneg
    dsimp only
    by_cases zero : significand = 0
    · rw [zero, Binary.unpacked_zero]
      exact iff_of_true rfl (.inr rfl)
    · rw [Binary.unpacked_finite zero, or_iff_left zero]
      cases negative with
      | false => exact iff_of_true rfl rfl
      | true => exact iff_of_false (by rintro ⟨⟩) (by rintro ⟨⟩)

def unsignedZero : UnpackedFloat → UnpackedFloat
  | .zero _ => .zero .positive
  | x => x

theorem isNaN_unsignedZero (x : UnpackedFloat) : (unsignedZero x).isNaN = x.isNaN := by
  cases x <;> rfl

theorem compare_eq_iff {x y : UnpackedFloat} :
    x.compare y = some .eq ↔ x.isNaN = false ∧ unsignedZero x = unsignedZero y := by
  have signs (s s' : Sign) : Ord.compare s s' = .eq ↔ s = s' := by
    cases s <;> cases s' <;> simp [Ord.compare]
  have parts (m m' : Nat) (e e' : Int) :
      (Ord.compare e e').then (Ord.compare m m') = .eq ↔ m = m' ∧ e = e' := by
    rw [Ordering.then_eq_eq, Int.compare_eq_eq, Nat.compare_eq_eq, and_comm]
  have swapped (o : Ordering) : o.swap = .eq ↔ o = .eq := by cases o <;> decide
  cases x with
  | notANumber =>
    refine iff_of_false ?_ fun both => Bool.false_ne_true both.1.symm
    rintro ⟨⟩
  | infinity sign =>
    refine Iff.trans ?_ (and_iff_right rfl).symm
    cases y with
    | infinity other =>
      show some (Ord.compare sign other) = some .eq ↔
        UnpackedFloat.infinity sign = UnpackedFloat.infinity other
      rw [Option.some.injEq, signs, UnpackedFloat.infinity.injEq]
    | _ => cases sign <;> exact iff_of_false (by rintro ⟨⟩) (by rintro ⟨⟩)
  | zero sign =>
    refine Iff.trans ?_ (and_iff_right rfl).symm
    cases y with
    | zero other => exact iff_of_true rfl rfl
    | notANumber => exact iff_of_false (by rintro ⟨⟩) (by rintro ⟨⟩)
    | infinity other | finite other => cases other <;> exact iff_of_false (by rintro ⟨⟩) (by rintro ⟨⟩)
  | finite sign m e positive =>
    refine Iff.trans ?_ (and_iff_right rfl).symm
    cases y with
    | finite other m' e' positive' =>
      have same : unsignedZero (.finite sign m e positive) =
          unsignedZero (.finite other m' e' positive') ↔ sign = other ∧ m = m' ∧ e = e' :=
        iff_of_eq (UnpackedFloat.finite.injEq ..)
      rw [same, ← parts m m' e e']
      cases sign with
      | positive =>
        cases other with
        | positive => exact (iff_of_eq (Option.some.injEq _ _)).trans (and_iff_right rfl).symm
        | negative => exact iff_of_false (by rintro ⟨⟩) (by rintro ⟨⟨⟩, _⟩)
      | negative =>
        cases other with
        | positive => exact iff_of_false (by rintro ⟨⟩) (by rintro ⟨⟨⟩, _⟩)
        | negative =>
          exact (iff_of_eq (Option.some.injEq _ _)).trans
            ((swapped _).trans (and_iff_right rfl).symm)
    | notANumber => exact iff_of_false (by rintro ⟨⟩) (by rintro ⟨⟩)
    | infinity other => cases other <;> exact iff_of_false (by rintro ⟨⟩) (by rintro ⟨⟩)
    | zero other => cases sign <;> exact iff_of_false (by rintro ⟨⟩) (by rintro ⟨⟩)

theorem beq_iff {x y : Float} : (x == y) = true ↔
    x.isNaN = false ∧ unsignedZero x.toModel.unpack = unsignedZero y.toModel.unpack := by
  show (x.toModel.unpack.compare y.toModel.unpack == some .eq) = true ↔ _
  rw [beq_iff_eq, compare_eq_iff]
  rfl

theorem beq_symm {x y : Float} (same : (x == y) = true) : (y == x) = true := by
  obtain ⟨number, eq⟩ := beq_iff.mp same
  refine beq_iff.mpr ⟨?_, eq.symm⟩
  calc y.toModel.unpack.isNaN
    _ = (unsignedZero y.toModel.unpack).isNaN := (isNaN_unsignedZero _).symm
    _ = x.toModel.unpack.isNaN := by rw [← eq, isNaN_unsignedZero]
    _ = false := number

theorem beq_trans {x y z : Float} (first : (x == y) = true) (second : (y == z) = true) :
    (x == z) = true := by
  obtain ⟨number, eq⟩ := beq_iff.mp first
  exact beq_iff.mpr ⟨number, eq.trans (beq_iff.mp second).2⟩

theorem beq_self_iff {x : Float} : (x == x) = true ↔ x.isNaN = false :=
  beq_iff.trans (and_iff_left rfl)

theorem beq_self {x : Float} (finite : isFinite x = true) : (x == x) = true := by
  have number := unpack_of_isFinite finite
  refine beq_self_iff.mpr ?_
  show x.toModel.unpack.isNaN = false
  cases parts : x.toModel.unpack with
  | notANumber => exact absurd parts number
  | _ => rfl

theorem power_of_nonpos (base : Nat) {exponent : Int} (nonpos : exponent ≤ 0) :
    power base exponent = 1 := by
  unfold power
  rw [Int.toNat_of_nonpos nonpos, Nat.pow_eq, Nat.pow_zero]

section
variable {n significand : Nat} {exponent : Int}

theorem log2_of_normal (normal : binade ≤ significand ∧ significand < 2 * binade)
    (value : n * power 2 (-exponent) = significand * power 2 exponent) :
    (n.log2 : Int) = 52 + exponent := by
  obtain ⟨least, greatest⟩ := normal
  change 2 ^ 52 ≤ significand at least
  change significand < 2 ^ 53 at greatest
  rcases Int.eq_nat_or_neg exponent with ⟨k, rfl | rfl⟩
  · have shifted : n = significand * 2 ^ k := by
      have whole : power 2 (-(k : Int)) = 1 := by simp [power]
      rwa [whole, Nat.mul_one] at value
    have lower : 2 ^ (52 + k) ≤ n := by
      rw [shifted, Nat.pow_add]
      exact Nat.mul_le_mul_right _ least
    have upper : n < 2 ^ (52 + k + 1) := by
      rw [shifted, show 52 + k + 1 = 53 + k by omega, Nat.pow_add]
      exact Nat.mul_lt_mul_of_pos_right greatest (Nat.two_pow_pos k)
    have positive : n ≠ 0 := fun eq => by
      have := Nat.two_pow_pos (52 + k)
      omega
    have log := (Nat.log2_eq_iff positive).mpr ⟨lower, upper⟩
    omega
  · have shifted : n * 2 ^ k = significand := by
      have up : power 2 (-(-(k : Int))) = 2 ^ k := by simp [power]
      have whole : power 2 (-(k : Int)) = 1 := by simp [power]
      rwa [up, whole, Nat.mul_one] at value
    have positive : n ≠ 0 := by
      rintro rfl
      omega
    have few : k ≤ 52 := Nat.not_lt.mp fun many => by
      have factor : 2 ^ 53 ≤ 2 ^ k := Nat.pow_le_pow_right (by omega) (by omega)
      have product : 2 ^ k ≤ n * 2 ^ k := Nat.le_mul_of_pos_left _ (by omega)
      omega
    have lower : 2 ^ (52 - k) ≤ n := by
      refine Nat.le_of_mul_le_mul_right ?_ (Nat.two_pow_pos k)
      rw [← Nat.pow_add, Nat.sub_add_cancel few, shifted]
      exact least
    have upper : n < 2 ^ (52 - k + 1) := by
      refine Nat.lt_of_mul_lt_mul_right (a := 2 ^ k) ?_
      rw [← Nat.pow_add, shifted, show 52 - k + 1 + k = 53 by omega]
      exact greatest
    have log := (Nat.log2_eq_iff positive).mpr ⟨lower, upper⟩
    omega

theorem lastPlace_one (positive : n ≠ 0) : lastPlace n 1 = max (-1074) ((n.log2 : Int) - 52) := by
  have whole : power 2 (-(n.log2 : Int)) = 1 := power_of_nonpos 2 (by omega)
  have up : power 2 n.log2 = 2 ^ n.log2 := by simp [power]
  have leading : leadingPower 2 n.log2 n 1 = n.log2 := by
    unfold leadingPower
    rw [whole, up, Nat.one_mul, Nat.mul_one, if_pos (Nat.log2_self_le positive)]
  unfold lastPlace
  dsimp only
  rw [show ((n.log2 : Int) - (Nat.log2 1 : Int)) = (n.log2 : Int) from Int.sub_zero _, leading]

theorem roundedBits_of_normal (normal : binade ≤ significand ∧ significand < 2 * binade)
    (range : -1074 ≤ exponent ∧ exponent ≤ 971)
    (value : n * power 2 (-exponent) = significand * power 2 exponent) :
    roundedBits n 1 = (exponent + 1074).toNat * binade + significand := by
  have log := log2_of_normal normal value
  have positive : n ≠ 0 := by
    rintro rfl
    rw [Nat.zero_mul, eq_comm, Nat.mul_eq_zero] at value
    have := power_pos (by omega : 0 < 2) exponent
    unfold binade at normal
    omega
  have place : lastPlace n 1 = exponent := by
    rw [lastPlace_one positive]
    omega
  have exact : roundedQuotient (n * power 2 (-exponent)) (1 * power 2 exponent) = significand := by
    rw [value, Nat.one_mul, Nat.mul_comm]
    exact roundedQuotient_mul _ _ (power_pos (by omega) _)
  unfold roundedBits
  rw [if_neg positive]
  dsimp only
  rw [place, exact]
  unfold infinityBits binade at *
  omega

theorem wholePart_mul (whole : hasFraction significand exponent = false) :
    wholePart significand exponent * power 2 (-exponent) = significand * power 2 exponent := by
  have divides : power 2 (-exponent) ∣ significand :=
    Nat.dvd_of_mod_eq_zero (by simpa [hasFraction] using whole)
  exact Nat.div_mul_cancel (Nat.dvd_mul_right_of_dvd divides _)

end

theorem ofInt_signed (negative : Bool) {n : Nat} (positive : n ≠ 0) :
    ofInt (signed negative n) = rounded negative n 1 := by
  unfold ofInt ofSigned
  cases negative with
  | false =>
    have sign : decide (signed false n < 0) = false := by simp [signed]
    rw [sign]
    rfl
  | true =>
    have sign : decide (signed true n < 0) = true := by
      simp only [signed, if_true, decide_eq_true_eq]
      omega
    have size : (signed true n).natAbs = n := Int.natAbs_neg n
    rw [sign, size]

theorem zero_beq {x : Float} (bits : x.toBits.toNat = 0 ∨ x.toBits.toNat = leastNegative) :
    (ofInt 0 == x) = true := by
  rw [← ofBits_toBits x]
  rcases bits with zero | zero
  · rw [show x.toBits = 0 from UInt64.toNat_inj.mp zero]
    rfl
  · rw [show x.toBits = 9223372036854775808 from UInt64.toNat_inj.mp zero]
    rfl

theorem eq_zero_of_low {significand : Nat} {exponent : Int} (lt : significand < binade)
    (low : exponent ≤ -52) (whole : hasFraction significand exponent = false) :
    significand = 0 := by
  have least : binade ≤ power 2 (-exponent) :=
    Nat.pow_le_pow_right (by decide : 0 < 2) (by omega : 52 ≤ (-exponent).toNat)
  have divided : significand % power 2 (-exponent) = 0 := by simpa [hasFraction] using whole
  rwa [Nat.mod_eq_of_lt (Nat.lt_of_lt_of_le lt least)] at divided

theorem ofInt_of_normal {x : Float} {n biased : Nat}
    (exponent : x.toBits.toNat / binade % 2048 = biased) (normal : 0 < biased ∧ biased < 2047)
    (value : n * power 2 (-((biased : Int) - 1075)) =
      (binade + x.toBits.toNat % binade) * power 2 ((biased : Int) - 1075)) :
    ofInt (signed (decide (leastNegative ≤ x.toBits.toNat)) n) = x := by
  have fraction := Nat.mod_lt x.toBits.toNat (show 0 < binade by decide)
  have rounds := roundedBits_of_normal (by omega) (by omega) value
  have positive : n ≠ 0 := by
    rintro rfl
    change 0 = _ at rounds
    unfold binade at rounds
    omega
  have bits : signBit (decide (leastNegative ≤ x.toBits.toNat)) + roundedBits n 1 =
      x.toBits.toNat := by
    have bound := x.toBits.toNat_lt
    rw [rounds]
    unfold signBit
    simp only [decide_eq_true_eq]
    unfold leastNegative binade at *
    split <;> omega
  rw [ofInt_signed _ positive, rounded, bits, ofBits_ofNat_toBits]

/-- A double that is a safe integer is equal to the double nearest to that integer. They have
the same bits unless it is a negative zero. -/
theorem ofInt_of_safeInteger {x : Float} {i : Int} (safe : safeInteger? x = some i) :
    (ofInt i == x) = true := by
  unfold safeInteger? at safe
  split at safe
  · rename_i negative significand exponent parts
    dsimp only at safe
    split at safe
    · rename_i bounded
      cases safe
      have whole : hasFraction significand exponent = false := by
        simpa using (Bool.and_eq_true_iff.mp bounded).1
      have value := wholePart_mul whole
      obtain ⟨rfl, small, ⟨biased, rfl, rfl⟩ | ⟨biased, rfl, rfl⟩⟩ := binary_finite parts
      · have none := eq_zero_of_low (Nat.mod_lt _ (by decide)) (by decide) whole
        have zero : signed (decide (leastNegative ≤ x.toBits.toNat))
            (wholePart (x.toBits.toNat % binade) (-1074)) = 0 := by
          rw [none]
          simp [wholePart, signed]
        rw [zero]
        refine zero_beq ?_
        have bound := x.toBits.toNat_lt
        unfold binade leastNegative at *
        omega
      · have finite : isFinite x = true := by
          unfold isFinite
          rw [parts]
        rw [ofInt_of_normal rfl ⟨biased, small⟩ value]
        exact beq_self finite
    · cases safe
  · cases safe

end Accessors.Number
