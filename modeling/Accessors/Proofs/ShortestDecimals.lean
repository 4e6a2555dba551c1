import Accessors.Proofs.DisplayedNumbers
import Accessors.Proofs.RoundingIntervals

/-! The shortest decimal of a double reads back as the double. The finest grid is finer than the
interval of the double is wide, so one of its points reads back; coarsening keeps such a point, and
the nearest one is taken. Main statement: `readsBack_shortest`. -/

namespace Accessors.Number

theorem ten_zpow_le_two_mul {bits digits : Nat} (some : bits ≠ 0) (under : 2 ^ bits ≤ 10 ^ digits)
    (above : 10 ^ digits ≤ 2 ^ (bits + 1)) {t l : Int} (scaled : t * bits ≤ digits * l)
    (short : l ≤ bits) : (10 : ℚ) ^ t ≤ 2 * 2 ^ l := by
  have under : (2 : ℚ) ^ bits ≤ 10 ^ digits := by exact_mod_cast under
  have above : (10 : ℚ) ^ digits ≤ 2 ^ (bits + 1) := by exact_mod_cast above
  have powers : ((10 : ℚ) ^ digits) ^ l ≤ 2 ^ bits * (2 ^ bits) ^ l := by
    rcases Int.le_total 0 l with nonneg | nonpos
    · obtain ⟨n, rfl⟩ := Int.eq_ofNat_of_zero_le nonneg
      rw [zpow_natCast, zpow_natCast]
      calc ((10 : ℚ) ^ digits) ^ n
        _ ≤ (2 ^ (bits + 1)) ^ n := by gcongr
        _ = 2 ^ n * (2 ^ bits) ^ n := by rw [pow_succ', mul_pow]
        _ ≤ 2 ^ bits * (2 ^ bits) ^ n := by
          gcongr
          · exact one_le_two
          · omega
    · obtain ⟨n, rfl⟩ := Int.exists_eq_neg_ofNat nonpos
      rw [zpow_neg, zpow_neg, zpow_natCast, zpow_natCast]
      calc (((10 : ℚ) ^ digits) ^ n)⁻¹
        _ ≤ ((2 ^ bits) ^ n)⁻¹ := by gcongr
        _ ≤ 2 ^ bits * ((2 ^ bits) ^ n)⁻¹ :=
          le_mul_of_one_le_left (by positivity) (one_le_pow₀ one_le_two)
  -- raised to this power both sides have whole exponents, without the rounded logarithm
  refine (pow_le_pow_iff_left₀ (by positivity) (by positivity) some).mp ?_
  calc ((10 : ℚ) ^ t) ^ bits
    _ = 10 ^ (t * bits) := by rw [zpow_mul, zpow_natCast]
    _ ≤ 10 ^ (digits * l) := zpow_le_zpow_right₀ (by norm_num) scaled
    _ = (10 ^ digits) ^ l := by rw [zpow_mul, zpow_natCast]
    _ ≤ 2 ^ bits * (2 ^ bits) ^ l := powers
    _ = (2 * 2 ^ l) ^ bits := by
      rw [mul_pow, ← zpow_natCast (2 ^ l), ← zpow_mul, mul_comm l, zpow_mul, zpow_natCast]

section
variable {significand : Nat} {exponent : Int}

theorem fine_grid (canonical : Canonical significand exponent) :
    4 * (10 : ℚ) ^ fineExponent significand exponent < 3 * 2 ^ exponent := by
  have bits : significand.log2 ≤ 52 :=
    Nat.le_of_lt_succ ((Nat.log2_lt canonical.some).mpr canonical.few)
  have greatest := canonical.greatest
  have least : 2 ^ 100000 ≤ 10 ^ 30103 := by decide +kernel
  have most : 10 ^ 30103 ≤ 2 ^ (100000 + 1) := by decide +kernel
  have power := ten_zpow_le_two_mul (by decide) least most
    (t := (significand.log2 + exponent) * 30103 / 100000) (l := significand.log2 + exponent)
    (by omega) (by omega)
  have binary : (2 : ℚ) ^ ((significand.log2 : Int) + exponent) ≤
      2 ^ (52 : Int) * 2 ^ exponent := by
    rw [zpow_add₀ two_ne_zero]
    gcongr
    · exact one_le_two
    · omega
  have unit : (0 : ℚ) < 2 ^ exponent := by positivity
  unfold fineExponent
  rw [zpow_sub₀ (by norm_num)]
  linarith

end

theorem Window.of_wide {low value high unit : Nat} (grid : Int) (closed : Bool)
    (positive : 0 < unit) (wide : low + unit < high) :
    (Window.of grid low value high unit closed).least ≤
      (Window.of grid low value high unit closed).greatest := by
  cases closed with
  | true => exact Nat.div_le_div_right (show low + unit - 1 ≤ high by omega)
  | false =>
    show low / unit + 1 ≤ (high - 1) / unit
    rw [Nat.le_div_iff_mul_le positive, Nat.succ_mul]
    have := Nat.div_mul_le_self low unit
    omega

section
variable (exponent grid : Int)

def scale : Nat :=
  power 2 exponent * power 10 (-grid)

def unit : Nat :=
  4 * power 2 (-exponent) * power 10 grid

theorem scale_pos : 0 < scale exponent grid :=
  Nat.mul_pos (power_pos (by decide) _) (power_pos (by decide) _)

theorem unit_pos : 0 < unit exponent grid :=
  Nat.mul_pos (Nat.mul_pos (by decide) (power_pos (by decide) _)) (power_pos (by decide) _)

theorem unit_eq :
    (unit exponent grid : ℚ) = 4 * (10 ^ grid / 2 ^ exponent) * scale exponent grid := by
  have two := power_div 2 exponent
  have ten := power_div 10 grid
  have twos := (power_cast_pos (show 0 < 2 by decide) exponent).ne'
  have twos' := (power_cast_pos (show 0 < 2 by decide) (-exponent)).ne'
  have tens := (power_cast_pos (show 0 < 10 by decide) (-grid)).ne'
  unfold unit scale
  push_cast at two ten ⊢
  rw [← two, ← ten]
  field_simp

end

variable {m : Nat} {e : Int} {point : Nat}

theorem window_eq (m : Nat) (e : Int) :
    window m e = .of (fineExponent m e) ((4 * m - below m e) * scale e (fineExponent m e))
      (4 * m * scale e (fineExponent m e)) ((4 * m + 2) * scale e (fineExponent m e))
      (unit e (fineExponent m e)) (m % 2 = 0) := rfl

theorem window_some (canonical : Canonical m e) :
    (window m e).least ≤ (window m e).greatest := by
  have positive := scale_pos e (fineExponent m e)
  have fine : unit e (fineExponent m e) < 3 * scale e (fineExponent m e) := by
    have grid := fine_grid canonical
    have place : (0 : ℚ) < 2 ^ e := by positivity
    have scaled : (0 : ℚ) < scale e (fineExponent m e) := by exact_mod_cast positive
    have : (unit e (fineExponent m e) : ℚ) < 3 * scale e (fineExponent m e) := by
      rw [unit_eq, ← mul_div_assoc]
      gcongr
      rwa [div_lt_iff₀ place]
    exact_mod_cast this
  have some := canonical.some
  have gap : 1 ≤ below m e ∧ below m e ≤ 2 := by
    unfold below
    split <;> decide
  rw [window_eq]
  refine Window.of_wide _ _ (unit_pos e _) ?_
  generalize scale e (fineExponent m e) = s at *
  calc (4 * m - below m e) * s + unit e (fineExponent m e)
    _ < (4 * m - below m e) * s + 3 * s := by omega
    _ = (4 * m - below m e + 3) * s := (Nat.add_mul _ _ _).symm
    _ ≤ (4 * m + 2) * s := Nat.mul_le_mul_right s (by omega)

theorem shortest_reads (canonical : Canonical m e) (tie : Tie) :
    ∃ k : Nat, (shortest tie m e).exponent = fineExponent m e + k ∧
      (window m e).least ≤ 10 ^ k * (shortest tie m e).digits ∧
      10 ^ k * (shortest tie m e).digits ≤ (window m e).greatest := by
  obtain ⟨k, same, _⟩ := Window.coarsest_eq 20 (window m e)
  have some := Window.coarsest_reads 20 (window_some canonical)
  unfold shortest
  dsimp only
  rw [same] at some ⊢
  refine ⟨k, Window.exponent_coarsened _ k, ?_⟩
  rw [← Window.coarsened_reads]
  exact ((window_straddles m e).coarsened k).nearest_reads some tie

theorem readsBack_of_window
    (reads : (window m e).least ≤ point ∧ point ≤ (window m e).greatest) :
    ReadsBack m e (point * 10 ^ fineExponent m e) := by
  rw [window_eq] at reads
  have positive : (0 : ℚ) < scale e (fineExponent m e) := by
    exact_mod_cast scale_pos e (fineExponent m e)
  have place : (point * unit e (fineExponent m e) : ℚ) =
      4 * (point * 10 ^ fineExponent m e / 2 ^ e) * scale e (fineExponent m e) := by
    rw [unit_eq]
    ring
  obtain ⟨above, under⟩ := Window.of_reads _ (unit_pos e _) reads
  -- the midpoints themselves belong to the even neighbour
  have inside (odd : m % 2 = 1) := Window.of_reads_open (unit_pos e _)
    (by rwa [decide_eq_false (by omega : ¬ m % 2 = 0)] at reads)
  generalize scale e (fineExponent m e) = s at *
  generalize unit e (fineExponent m e) = u at *
  rw [Nat.sub_mul] at above inside
  constructor
  · have above : 4 * m * s ≤ point * u + below m e * s := by omega
    refine le_of_mul_le_mul_right ?_ positive
    rw [add_mul, ← place]
    exact_mod_cast above
  · refine le_of_mul_le_mul_right ?_ positive
    rw [← place]
    exact_mod_cast under
  · intro odd
    obtain ⟨above, under⟩ := inside odd
    constructor
    · have above : 4 * m * s < point * u + below m e * s := by omega
      refine lt_of_mul_lt_mul_right ?_ positive.le
      rw [add_mul, ← place]
      exact_mod_cast above
    · refine lt_of_mul_lt_mul_right ?_ positive.le
      rw [← place]
      exact_mod_cast under

theorem readsBack_shortest (canonical : Canonical m e) (tie : Tie) :
    ReadsBack m e ((shortest tie m e).digits * 10 ^ (shortest tie m e).exponent) := by
  obtain ⟨k, places, reads⟩ := shortest_reads canonical tie
  have same : ((shortest tie m e).digits : ℚ) * 10 ^ (shortest tie m e).exponent =
      (10 ^ k * (shortest tie m e).digits : Nat) * 10 ^ fineExponent m e := by
    rw [places, zpow_add₀ (by norm_num), zpow_natCast]
    push_cast
    ring
  rw [same]
  exact readsBack_of_window reads

end Accessors.Number
