import Accessors.Number.Reading
import Accessors.Proofs.WholeNumbers
import Mathlib.Algebra.Order.Field.Power
import Mathlib.Algebra.Order.Floor.Semifield
import Mathlib.Data.Int.Log
import Mathlib.Data.Rat.Floor
import Mathlib.Tactic.FieldSimp
import Mathlib.Tactic.Linarith
import Mathlib.Tactic.NormNum
import Mathlib.Tactic.Positivity

/-! Rounding intervals. The quotients that round to a double lie between the midpoints to its
neighbours, the midpoints included when its significand is even. Just below a power of two the
neighbour is half as far, and a quotient there is rounded with twice as fine a last place: its
significand is rounded up to two binades, which carries into the exponent. Main statement:
`nearest_of_readsBack`, that a decimal in the interval of a double is read as that double. -/

namespace Accessors.Number

section
variable {n d m : Nat} {place : Int}

theorem power_cast_pos {base : Nat} (positive : 0 < base) (exponent : Int) :
    (0 : ℚ) < power base exponent := by
  exact_mod_cast power_pos positive exponent

theorem power_div (base : Nat) (exponent : Int) :
    (power base exponent : ℚ) / power base (-exponent) = (base : ℚ) ^ exponent := by
  obtain ⟨k, rfl | rfl⟩ := Int.eq_nat_or_neg exponent
  · rw [power_of_nonpos base (show -(k : Int) ≤ 0 by omega)]
    simp [power]
  · rw [power_of_nonpos base (show -(k : Int) ≤ 0 by omega)]
    simp [power]

theorem scaled_quotient (n d : Nat) (place : Int) :
    ((n * power 2 (-place) : Nat) : ℚ) / (d * power 2 place : Nat) = n / d / 2 ^ place := by
  have unit := power_div 2 place
  push_cast at unit ⊢
  rw [← unit]
  field_simp

/-- A quotient is within half of an integer, and not exactly half from an odd one. -/
structure Near (m : Nat) (q : ℚ) : Prop where
  above : 2 * (m : ℚ) ≤ 2 * q + 1
  under : 2 * q ≤ 2 * m + 1
  inside : m % 2 = 1 → 2 * (m : ℚ) < 2 * q + 1 ∧ 2 * q < 2 * m + 1

theorem Near.cleared (near : Near m (n / d)) (positive : 0 < d) :
    2 * (d * m) ≤ 2 * n + d ∧ 2 * n ≤ 2 * (d * m) + d ∧
      (m % 2 = 1 → 2 * (d * m) < 2 * n + d ∧ 2 * n < 2 * (d * m) + d) := by
  have unit : (0 : ℚ) < d := by exact_mod_cast positive
  have least : ((2 * (d * m) : Nat) : ℚ) = d * (2 * m) := by
    push_cast
    ring
  have most : ((2 * (d * m) + d : Nat) : ℚ) = d * (2 * m + 1) := by
    push_cast
    ring
  have value : ((2 * n : Nat) : ℚ) = d * (2 * (n / d)) := by
    push_cast
    field_simp
  have more : ((2 * n + d : Nat) : ℚ) = d * (2 * (n / d) + 1) := by
    push_cast
    field_simp
  rw [← Nat.cast_le (α := ℚ), ← Nat.cast_le (α := ℚ), ← Nat.cast_lt (α := ℚ),
    ← Nat.cast_lt (α := ℚ), least, most, value, more]
  refine ⟨mul_le_mul_of_nonneg_left near.above unit.le,
    mul_le_mul_of_nonneg_left near.under unit.le, fun odd => ?_⟩
  obtain ⟨above, under⟩ := near.inside odd
  exact ⟨mul_lt_mul_of_pos_left above unit, mul_lt_mul_of_pos_left under unit⟩

theorem roundedQuotient_of_near (positive : 0 < d) (near : Near m (n / d)) :
    roundedQuotient n d = m := by
  obtain ⟨least, greatest, strict⟩ := near.cleared positive
  have parts := Nat.div_add_mod n d
  have rest := Nat.mod_lt n positive
  unfold roundedQuotient
  dsimp only
  generalize n / d = q at parts ⊢
  -- the floor is the integer or the one below it, which the rest decides
  have floor : q = m ∨ q + 1 = m := by
    rcases Nat.lt_trichotomy q m with less | same | more
    · refine .inr (Nat.le_antisymm less (Nat.not_lt.mp fun far => ?_))
      have := Nat.mul_le_mul_left d (show q + 2 ≤ m from far)
      rw [Nat.mul_add] at this
      omega
    · exact .inl same
    · have := Nat.mul_le_mul_left d (show m + 1 ≤ q from more)
      rw [Nat.mul_add] at this
      omega
  rcases floor with rfl | rfl
  · split <;> omega
  · rw [Nat.mul_add] at least strict
    split <;> omega

theorem power_le_iff (base : Nat) (exponent : Int) (positive : 0 < base) (some : 0 < d) :
    d * power base exponent ≤ n * power base (-exponent) ↔ (base : ℚ) ^ exponent ≤ n / d := by
  have divisor : (0 : ℚ) < d := by exact_mod_cast some
  rw [← power_div, div_le_div_iff₀ (power_cast_pos positive _) divisor,
    mul_comm (power base exponent : ℚ)]
  exact_mod_cast Iff.rfl

theorem log_quotient (positive : 0 < n) (some : 0 < d) :
    (n.log2 : Int) - d.log2 - 1 ≤ Int.log 2 (n / d : ℚ) ∧
      Int.log 2 (n / d : ℚ) ≤ (n.log2 : Int) - d.log2 := by
  have dividend : (0 : ℚ) < n := by exact_mod_cast positive
  have divisor : (0 : ℚ) < d := by exact_mod_cast some
  have quotient : (0 : ℚ) < n / d := div_pos dividend divisor
  have size (n : Nat) (positive : 0 < n) :
      (2 : ℚ) ^ (n.log2 : Int) ≤ n ∧ (n : ℚ) < 2 ^ ((n.log2 : Int) + 1) := by
    constructor
    · exact_mod_cast Nat.log2_self_le positive.ne'
    · exact_mod_cast Nat.lt_log2_self
  obtain ⟨least, greatest⟩ := size n positive
  obtain ⟨least', greatest'⟩ := size d some
  constructor
  · refine (Int.zpow_le_iff_le_log (by decide) quotient).mp ?_
    have apart : ((2 : Nat) : ℚ) ^ ((n.log2 : Int) - d.log2 - 1) * 2 ^ ((d.log2 : Int) + 1) =
        2 ^ (n.log2 : Int) := by
      rw [Nat.cast_ofNat, ← zpow_add₀ two_ne_zero]
      congr 1
      omega
    rw [le_div_iff₀ divisor]
    calc _ ≤ ((2 : Nat) : ℚ) ^ ((n.log2 : Int) - d.log2 - 1) * 2 ^ ((d.log2 : Int) + 1) := by gcongr
      _ ≤ n := apart.trans_le least
  · refine Int.lt_add_one_iff.mp ((Int.lt_zpow_iff_log_lt (by decide) quotient).mp ?_)
    have apart : ((2 : Nat) : ℚ) ^ ((n.log2 : Int) - d.log2 + 1) * 2 ^ (d.log2 : Int) =
        2 ^ ((n.log2 : Int) + 1) := by
      rw [Nat.cast_ofNat, ← zpow_add₀ two_ne_zero]
      congr 1
      omega
    rw [div_lt_iff₀ divisor]
    calc (n : ℚ)
      _ < 2 ^ ((n.log2 : Int) + 1) := greatest
      _ ≤ ((2 : Nat) : ℚ) ^ ((n.log2 : Int) - d.log2 + 1) * d := apart.ge.trans (by gcongr)

theorem lastPlace_eq (positive : 0 < n) (some : 0 < d) :
    lastPlace n d = max (-1074) (Int.log 2 (n / d : ℚ) - 52) := by
  obtain ⟨least, greatest⟩ := log_quotient positive some
  have quotient : (0 : ℚ) < n / d := div_pos (by exact_mod_cast positive) (by exact_mod_cast some)
  have reached := (power_le_iff (n := n) 2 ((n.log2 : Int) - d.log2) (by decide) some).trans
    (Int.zpow_le_iff_le_log (by decide) quotient)
  have leading : leadingPower 2 ((n.log2 : Int) - d.log2) n d = Int.log 2 (n / d : ℚ) := by
    unfold leadingPower
    split
    · rename_i above
      have := reached.mp above
      omega
    · rename_i under
      have := mt reached.mpr under
      omega
  unfold lastPlace
  dsimp only
  rw [leading]

theorem roundedBits_of_near (positive : 0 < n) (some : 0 < d)
    (last : max (-1074) (Int.log 2 (n / d : ℚ) - 52) = place) (near : Near m (n / d / 2 ^ place)) :
    roundedBits n d = min infinityBits ((place + 1074).toNat * binade + m) := by
  have unit : 0 < d * power 2 place := Nat.mul_pos some (power_pos (by decide) place)
  have significand : roundedQuotient (n * power 2 (-place)) (d * power 2 place) = m :=
    roundedQuotient_of_near unit (by rwa [scaled_quotient])
  unfold roundedBits
  rw [if_neg positive.ne']
  dsimp only
  rw [lastPlace_eq positive some, last, significand]

end

structure Canonical (significand : Nat) (exponent : Int) : Prop where
  some : significand ≠ 0
  few : significand < 2 * binade
  least : -1074 ≤ exponent
  greatest : exponent ≤ 971
  normal : exponent = -1074 ∨ binade ≤ significand

theorem canonical_of_binary {x : Float} {negative : Bool} {significand : Nat} {exponent : Int}
    (parts : binary x = .finite negative significand exponent) (some : significand ≠ 0) :
    Canonical significand exponent := by
  have few := significand_lt parts
  obtain ⟨_, small, ⟨_, _, rfl⟩ | ⟨_, normal, rfl⟩⟩ := binary_finite parts
  · exact ⟨some, few, Int.le_refl _, by decide, .inl rfl⟩
  · exact ⟨some, few, by omega, by omega, .inr (normal ▸ Nat.le_add_right _ _)⟩

def below (significand : Nat) (exponent : Int) : Nat :=
  if significand = binade && decide (-1074 < exponent) then 1 else 2

/-- A quotient lies between the midpoints to the neighbours of a double, and on neither of them when
the significand is odd. -/
structure ReadsBack (significand : Nat) (exponent : Int) (q : ℚ) : Prop where
  above : 4 * (significand : ℚ) ≤ 4 * (q / 2 ^ exponent) + below significand exponent
  under : 4 * (q / 2 ^ exponent) ≤ 4 * significand + 2
  inside : significand % 2 = 1 →
    4 * (significand : ℚ) < 4 * (q / 2 ^ exponent) + below significand exponent ∧
      4 * (q / 2 ^ exponent) < 4 * significand + 2

section
variable {m n d : Nat} {e : Int} {q : ℚ}

theorem readsBack_self (m : Nat) (e : Int) : ReadsBack m e (m * 2 ^ e) := by
  have exact : (m : ℚ) * 2 ^ e / 2 ^ e = m := mul_div_cancel_right₀ _ (by positivity)
  have some : (0 : ℚ) < below m e := by
    unfold below
    split <;> norm_num
  constructor
  · rw [exact]
    linarith
  · rw [exact]
    linarith
  · intro _
    rw [exact]
    constructor <;> linarith

theorem below_le (m : Nat) (e : Int) : (below m e : ℚ) ≤ 2 := by
  unfold below
  split <;> norm_num

theorem ReadsBack.positive (reads : ReadsBack m e q) (some : m ≠ 0) : 0 < q := by
  have unit : (0 : ℚ) < 2 ^ e := by positivity
  have one : (1 : ℚ) ≤ m := by exact_mod_cast Nat.one_le_iff_ne_zero.mpr some
  have above := reads.above
  have less := below_le m e
  have scaled : 0 < q / 2 ^ e := by linarith
  rwa [div_pos_iff_of_pos_right unit] at scaled

theorem ReadsBack.digits_pos {exponent : Int} (reads : ReadsBack m e (n * 10 ^ exponent))
    (some : m ≠ 0) : 0 < n := by
  have unit : (0 : ℚ) < 10 ^ exponent := by positivity
  have : 0 < (n : ℚ) := pos_of_mul_pos_left (reads.positive some) unit.le
  exact_mod_cast this

theorem le_log_iff (positive : 0 < q) (k : Nat) :
    (k : Int) + e ≤ Int.log 2 q ↔ 2 ^ k ≤ q / 2 ^ e := by
  have unit : (0 : ℚ) < 2 ^ e := by positivity
  rw [← Int.zpow_le_iff_le_log (by decide) positive, le_div_iff₀ unit, Nat.cast_ofNat,
    zpow_add₀ two_ne_zero, zpow_natCast]

theorem ReadsBack.near (reads : ReadsBack m e q) : Near m (q / 2 ^ e) := by
  have less := below_le m e
  obtain ⟨above, under, inside⟩ := reads
  refine ⟨by linarith, by linarith, fun odd => ?_⟩
  obtain ⟨above, under⟩ := inside odd
  constructor <;> linarith

theorem ReadsBack.near_finer (reads : ReadsBack m e q) (normal : binade ≤ m)
    (finer : q / 2 ^ e < binade) (least : -1074 < e) :
    m = binade ∧ Near (2 * binade) (q / 2 ^ (e - 1)) := by
  have halved : q / 2 ^ (e - 1) = 2 * (q / 2 ^ e) := by
    rw [zpow_sub_one₀ two_ne_zero]
    field_simp
  have power : m = binade := by
    refine Nat.le_antisymm (Nat.not_lt.mp fun more => ?_) normal
    have more : (binade : ℚ) + 1 ≤ m := by exact_mod_cast more
    have above := reads.above
    have less := below_le m e
    linarith
  subst power
  have quarter : below binade e = 1 := by
    unfold below
    rw [decide_eq_true least]
    rfl
  have above := reads.above
  rw [quarter, Nat.cast_one] at above
  refine ⟨rfl, ?_, ?_, fun odd => absurd odd (by decide)⟩
  · rw [halved]
    push_cast
    linarith
  · rw [halved]
    push_cast
    linarith

theorem roundedBits_of_readsBack (canonical : Canonical m e) (positive : 0 < n) (some : 0 < d)
    (reads : ReadsBack m e (n / d)) : roundedBits n d = (e + 1074).toNat * binade + m := by
  have size := le_log_iff (e := e) (reads.positive canonical.some)
  have above := reads.above
  have under := reads.under
  have less := below_le m e
  have near := reads.near
  have near_finer := reads.near_finer
  obtain ⟨_, few, least, greatest, normal⟩ := canonical
  have short : Int.log 2 (n / d : ℚ) < 53 + e := by
    refine Int.not_le.mp fun long => ?_
    have reached := (size 53).mp long
    have bound : (m : ℚ) + 1 ≤ 2 ^ 53 := by exact_mod_cast few
    linarith
  have bit : (binade : ℚ) = 2 ^ 52 := by norm_num [binade]
  -- below a power of two the last place is one finer, and the significand carries
  by_cases finer : (n / d : ℚ) / 2 ^ e < binade ∧ -1074 < e
  · obtain ⟨rfl, carried⟩ := near_finer (by omega) finer.1 finer.2
    have reached := (size 51).mpr (by linarith)
    have under := mt (size 52).mp (by linarith [finer.1])
    have place : max (-1074) (Int.log 2 (n / d : ℚ) - 52) = e - 1 := by omega
    rw [roundedBits_of_near positive some place carried]
    unfold infinityBits binade at *
    omega
  · have place : max (-1074) (Int.log 2 (n / d : ℚ) - 52) = e := by
      by_cases subnormal : e = -1074
      · omega
      · have reached := (size 52).mpr (by
          rw [← bit]
          exact not_lt.mp fun lt => finer ⟨lt, by omega⟩)
        omega
    rw [roundedBits_of_near positive some place near]
    unfold infinityBits binade at *
    omega

theorem toBits_of_parts {x : Float} {negative : Bool} (parts : binary x = .finite negative m e) :
    x.toBits.toNat = signBit negative + ((e + 1074).toNat * binade + m) := by
  have bound := x.toBits.toNat_lt
  obtain ⟨rfl, _, parts⟩ := binary_finite parts
  unfold signBit
  simp only [decide_eq_true_eq]
  unfold leastNegative binade at *
  split <;> omega

theorem rounded_of_readsBack {x : Float} {negative : Bool}
    (parts : binary x = .finite negative m e) (zero : m ≠ 0) (positive : 0 < n) (some : 0 < d)
    (reads : ReadsBack m e (n / d)) : rounded negative n d = x := by
  have bits := roundedBits_of_readsBack (canonical_of_binary parts zero) positive some reads
  rw [rounded, bits, ← toBits_of_parts parts, ofBits_ofNat_toBits]

theorem ReadsBack.bounds (reads : ReadsBack m e q) (canonical : Canonical m e) :
    2 ^ (-1075 : Int) ≤ q ∧ q < 2 ^ (1024 : Int) := by
  have one : (1 : ℚ) ≤ m := by exact_mod_cast Nat.one_le_iff_ne_zero.mpr canonical.some
  have many : (m : ℚ) + 1 ≤ 2 ^ (53 : Int) := by exact_mod_cast canonical.few
  have above := reads.above
  have under := reads.under
  have less := below_le m e
  have half : 2 ^ (-1 : Int) ≤ q / 2 ^ e := by
    rw [zpow_neg_one]
    linarith
  have short : q / 2 ^ e < 2 ^ (53 : Int) := by linarith
  have unit : (0 : ℚ) < 2 ^ e := by positivity
  have exact : q / 2 ^ e * 2 ^ e = q := div_mul_cancel₀ _ unit.ne'
  constructor
  · calc (2 : ℚ) ^ (-1075 : Int)
      _ = 2 ^ (-1 : Int) * 2 ^ (-1074 : Int) := zpow_add₀ two_ne_zero (-1) (-1074)
      _ ≤ 2 ^ (-1 : Int) * 2 ^ e := by
        gcongr
        · exact one_le_two
        · exact canonical.least
      _ ≤ q / 2 ^ e * 2 ^ e := by gcongr
      _ = q := exact
  · calc q
      _ = q / 2 ^ e * 2 ^ e := exact.symm
      _ < 2 ^ (53 : Int) * 2 ^ e := by gcongr
      _ ≤ 2 ^ (53 : Int) * 2 ^ (971 : Int) := by
        gcongr
        · exact one_le_two
        · exact canonical.greatest
      _ = 2 ^ (1024 : Int) := (zpow_add₀ two_ne_zero 53 971).symm

theorem two_zpow_le_ten_zpow : (2 : ℚ) ^ (1024 : Int) ≤ 10 ^ (309 : Int) := by
  have powers : 2 ^ 1024 ≤ 10 ^ 309 := by decide +kernel
  have cast := (Nat.cast_le (α := ℚ)).mpr powers
  rw [Nat.cast_pow, Nat.cast_pow] at cast
  exact cast

theorem ten_zpow_le {exponent : Int} (nonpos : exponent ≤ 0) :
    (10 : ℚ) ^ exponent ≤ 2 ^ (3 * exponent) := by
  obtain ⟨k, rfl⟩ := Int.exists_eq_neg_ofNat nonpos
  rw [zpow_mul, show (2 : ℚ) ^ (3 : Int) = 8 by norm_num, zpow_neg, zpow_neg, zpow_natCast,
    zpow_natCast]
  gcongr
  norm_num

theorem ReadsBack.in_range {exponent : Int} (reads : ReadsBack m e (n * 10 ^ exponent))
    (canonical : Canonical m e) : -1100 ≤ n.log2 + 3 * exponent ∧ exponent ≤ 330 := by
  obtain ⟨least, greatest⟩ := reads.bounds canonical
  have unit : (0 : ℚ) < 10 ^ exponent := by positivity
  have some : (1 : ℚ) ≤ n := by exact_mod_cast reads.digits_pos canonical.some
  constructor
  · by_cases nonneg : 0 ≤ exponent
    · omega
    · have smaller := ten_zpow_le (Int.le_of_not_le nonneg)
      have reached : (2 : ℚ) ^ (-1075 : Int) < 2 ^ ((n.log2 : Int) + 1 + 3 * exponent) :=
        calc (2 : ℚ) ^ (-1075 : Int)
          _ ≤ n * 10 ^ exponent := least
          _ ≤ n * 2 ^ (3 * exponent) := mul_le_mul_of_nonneg_left smaller n.cast_nonneg
          _ < 2 ^ ((n.log2 : Int) + 1) * 2 ^ (3 * exponent) := by
            gcongr
            exact_mod_cast Nat.lt_log2_self
          _ = 2 ^ ((n.log2 : Int) + 1 + 3 * exponent) := (zpow_add₀ two_ne_zero _ _).symm
      have := (zpow_lt_zpow_iff_right₀ one_lt_two).mp reached
      omega
  · have reached : (10 : ℚ) ^ exponent < 10 ^ (309 : Int) :=
      calc (10 : ℚ) ^ exponent
        _ ≤ n * 10 ^ exponent := le_mul_of_one_le_left unit.le some
        _ < 2 ^ (1024 : Int) := greatest
        _ ≤ 10 ^ (309 : Int) := two_zpow_le_ten_zpow
    have := (zpow_lt_zpow_iff_right₀ (by norm_num)).mp reached
    omega

theorem nearest_of_readsBack {x : Float} {negative : Bool} {exponent : Int}
    (parts : binary x = .finite negative m e) (zero : m ≠ 0)
    (reads : ReadsBack m e (n * 10 ^ exponent)) : nearest negative n exponent = x := by
  have positive := reads.digits_pos zero
  obtain ⟨least, greatest⟩ := reads.in_range (canonical_of_binary parts zero)
  unfold nearest
  rw [if_neg (by omega), if_neg (by omega)]
  refine rounded_of_readsBack parts zero (Nat.mul_pos positive (power_pos (by decide) _))
    (power_pos (by decide) _) ?_
  rwa [Nat.cast_mul, mul_div_assoc, power_div]

end

end Accessors.Number
