import Accessors.Proofs.Numerals
import Accessors.Proofs.ShortestDecimals

/-! Displayed numbers are read back. Whichever notation a decimal is written in, it is read as a
decimal of the same value, and a text that is read as a decimal is none of the other forms that
coercion knows. So a displayed number is coerced to the number that it shows, and only the sign of a
zero is lost. Main statement: `displayed_numbers_read_back`. -/

namespace Accessors

namespace Number

section
variable {whole fraction rest after : List Char} {exponent : Int} (negative : Bool)

theorem decimal?_parts (given : whole ≠ []) (digits : AreDigits whole)
    (stop : ∀ c, rest.head? = some c → isDigit c = false)
    (parts : splitFraction rest = (fraction, after)) (power : exponent? after = some exponent) :
    decimal? (withSign negative (whole ++ rest)) =
      some (nearest negative (digitsValue (whole ++ fraction)) (exponent - fraction.length)) := by
  obtain ⟨taken, left⟩ := split_digits digits stop
  obtain ⟨first, others, rfl⟩ := List.exists_cons_of_ne_nil given
  have signed := takeSign_withSign (digits first List.mem_cons_self) negative (others ++ rest)
  rw [decimal?_eq, List.cons_append, signed]
  rw [List.cons_append] at taken left
  simp only [taken, left, parts, List.cons_ne_nil, false_and, if_false, power, Option.map_some]

theorem decimal?_point (given : whole ≠ []) (digits : AreDigits whole)
    (further : AreDigits fraction) (power : exponent? after = some exponent) :
    decimal? (withSign negative (whole ++ '.' :: (fraction ++ after))) =
      some (nearest negative (digitsValue (whole ++ fraction)) (exponent - fraction.length)) := by
  have isExponent := exponent?_isSome.mp (Option.isSome_of_eq_some power)
  refine decimal?_parts negative given digits ?_ ?_ power
  · rintro c ⟨⟩
    rfl
  · exact Prod.ext_iff.mpr (split_digits further fun c first => (isExponent.stop c first).1)

theorem decimal?_digits (given : whole ≠ []) (digits : AreDigits whole)
    (power : exponent? after = some exponent) :
    decimal? (withSign negative (whole ++ after)) =
      some (nearest negative (digitsValue whole) exponent) := by
  have isExponent := exponent?_isSome.mp (Option.isSome_of_eq_some power)
  have read := decimal?_parts negative given digits (fun c first => (isExponent.stop c first).1)
    (splitFraction_of_other fun first => (isExponent.stop _ first).2 rfl) power
  rwa [List.append_nil, List.length_nil, Int.natCast_zero, Int.sub_zero] at read

end

section
variable {digits : List Char} {exponent : Int} {n : Nat}

theorem le_foldl_digitOf (digits : List Char) (start : Nat) :
    start ≤ digits.foldl (fun n c => digitOf c + 10 * n) start := by
  have least := le_foldl_digits (show 0 < 10 by decide) (digits.map digitOf) start
  rwa [List.foldl_map] at least

theorem exponentValue_eq (small : digitsValue digits < exponentLimit) :
    exponentValue digits = digitsValue digits := by
  rw [digitsValue_eq] at small ⊢
  unfold exponentValue
  -- what has been read so far is no more than the end, so it never reaches the limit
  generalize 0 = start at small ⊢
  induction digits generalizing start with
  | nil => rfl
  | cons c digits ih =>
    rw [List.foldl_cons] at small ⊢
    rw [List.foldl_cons]
    have least := le_foldl_digitOf digits (digitOf c + 10 * start)
    rw [if_pos (show start < exponentLimit by omega), Nat.add_comm (10 * start)]
    exact ih _ small

theorem areDigits_digitsOf (n : Nat) : AreDigits (digitsOf n) :=
  fun _ => isDigit_of_mem_toDigits

theorem digitsValue_digitsOf (n : Nat) : digitsValue (digitsOf n) = n :=
  digitsValue_toDigits n

theorem takeSign_written (exponent : Int) (plus : Bool) (n : Nat) :
    takeSign ((if exponent < 0 then ['-'] else if plus then ['+'] else []) ++ digitsOf n) =
      (decide (exponent < 0), digitsOf n) := by
  obtain ⟨first, rest, digits⟩ := List.exists_cons_of_ne_nil (digitsOf_ne_nil n)
  have digit : isDigit first = true := areDigits_digitsOf n first (digits ▸ List.mem_cons_self)
  rw [digits]
  by_cases negative : exponent < 0
  · rw [if_pos negative, decide_eq_true negative]
    exact takeSign_minus _
  · rw [if_neg negative, decide_eq_false negative]
    cases plus with
    | true => exact takeSign_plus _
    | false => exact takeSign_of_digit digit rest

theorem exponent?_written (small : exponent.natAbs < exponentLimit) (plus : Bool) :
    exponent? ('e' :: (if exponent < 0 then ['-'] else if plus then ['+'] else []) ++
      digitsOf exponent.natAbs) = some exponent := by
  have all : (digitsOf exponent.natAbs).all isDigit = true :=
    List.all_eq_true.mpr (areDigits_digitsOf _)
  have read : exponentValue (digitsOf exponent.natAbs) = exponent.natAbs := by
    rw [exponentValue_eq, digitsValue_digitsOf]
    rwa [digitsValue_digitsOf]
  have taken := takeSign_written exponent plus exponent.natAbs
  have number : signed (decide (exponent < 0)) exponent.natAbs = exponent := signed_natAbs exponent
  unfold exponent?
  rw [List.cons_append]
  simp only [taken, all, digitsOf_ne_nil, read, number, ne_eq, not_false_eq_true, and_self, if_true,
    true_or]

end

/-- A text is read, after any sign, as a decimal of a value. -/
def Spells (s : List Char) (q : ℚ) : Prop :=
  ∃ (n : Nat) (exponent : Int), (n : ℚ) * 10 ^ exponent = q ∧
    ∀ negative, decimal? (withSign negative s) = some (nearest negative n exponent)

section
variable {n : Nat}

theorem spells_digitsOf (n : Nat) : Spells (digitsOf n) n := by
  refine ⟨n, 0, by simp, fun negative => ?_⟩
  have read := decimal?_digits negative (digitsOf_ne_nil n) (areDigits_digitsOf n)
    (show exponent? [] = some 0 from rfl)
  rwa [List.append_nil, digitsValue_digitsOf] at read

theorem areDigits_zeros (k : Nat) : AreDigits (List.replicate k '0') := by
  intro c mem
  obtain rfl := List.eq_of_mem_replicate mem
  rfl

theorem AreDigits.append {s t : List Char} (first : AreDigits s) (second : AreDigits t) :
    AreDigits (s ++ t) :=
  fun c mem => (List.mem_append.mp mem).elim (first c) (second c)

theorem spells_below_one (n k : Nat) :
    Spells ('0' :: '.' :: List.replicate k '0' ++ digitsOf n)
      (n * 10 ^ (-(k + (digitsOf n).length : Int))) := by
  have further := (areDigits_zeros k).append (areDigits_digitsOf n)
  have value : digitsValue (['0'] ++ (List.replicate k '0' ++ digitsOf n)) = n :=
    (digitsValue_zeros_append (k + 1) (digitsOf n)).trans (digitsValue_digitsOf n)
  refine ⟨n, _, rfl, fun negative => ?_⟩
  have read := decimal?_point negative (List.cons_ne_nil '0' []) (areDigits_zeros 1) further
    (show exponent? [] = some 0 from rfl)
  rw [value, List.append_nil, List.length_append, List.length_replicate, Int.zero_sub,
    Int.natCast_add] at read
  exact read

theorem spells_whole (n k : Nat) (wholeMark : Bool) :
    Spells (digitsOf n ++ List.replicate k '0' ++ if wholeMark then ['.', '0'] else [])
      (n * 10 ^ k) := by
  have digits := (areDigits_digitsOf n).append (areDigits_zeros k)
  have given : digitsOf n ++ List.replicate k '0' ≠ [] :=
    List.append_ne_nil_of_left_ne_nil (digitsOf_ne_nil n) _
  cases wholeMark with
  | false =>
    refine ⟨n * 10 ^ k, 0, by simp, fun negative => ?_⟩
    have read := decimal?_digits negative given digits (show exponent? [] = some 0 from rfl)
    rw [digitsValue_append_zeros, digitsValue_digitsOf] at read
    exact read
  | true =>
    refine ⟨n * 10 ^ k * 10, -1, by simp, fun negative => ?_⟩
    have read := decimal?_point negative given digits (areDigits_zeros 1)
      (show exponent? [] = some 0 from rfl)
    rw [digitsValue_append_zeros, digitsValue_append_zeros, digitsValue_digitsOf] at read
    exact read

theorem spells_point {k : Nat} (some : 0 < k) (short : k ≤ (digitsOf n).length) :
    Spells ((digitsOf n).take k ++ '.' :: (digitsOf n).drop k)
      (n * 10 ^ (k - (digitsOf n).length : Int)) := by
  have digits := areDigits_digitsOf n
  have given : (digitsOf n).take k ≠ [] := by
    rw [ne_eq, List.take_eq_nil_iff]
    exact not_or.mpr ⟨some.ne', digitsOf_ne_nil n⟩
  have whole : AreDigits ((digitsOf n).take k) := fun c mem => digits c (List.mem_of_mem_take mem)
  have further : AreDigits ((digitsOf n).drop k) :=
    fun c mem => digits c (List.mem_of_mem_drop mem)
  refine ⟨n, _, rfl, fun negative => ?_⟩
  have read := decimal?_point negative given whole further (show exponent? [] = .some 0 from rfl)
  rw [List.take_append_drop, digitsValue_digitsOf, List.append_nil, List.length_drop,
    Int.natCast_sub short, Int.zero_sub, Int.neg_sub] at read
  exact read

theorem spells_positional (n : Nat) (point : Int) (wholeMark : Bool) :
    Spells (positional (digitsOf n) point wholeMark)
      (n * 10 ^ (point - (digitsOf n).length)) := by
  unfold positional zeros
  split
  · rename_i below
    obtain ⟨k, rfl⟩ := Int.exists_eq_neg_ofNat below
    have spelled := spells_below_one n k
    rw [Int.neg_add, ← Int.sub_eq_add_neg] at spelled
    rwa [Int.neg_neg, Int.toNat_natCast]
  · split
    · rename_i whole
      obtain ⟨k, places⟩ := Int.eq_ofNat_of_zero_le (Int.sub_nonneg_of_le whole)
      rw [places, Int.toNat_natCast, zpow_natCast]
      exact spells_whole n k wholeMark
    · rename_i some short
      obtain ⟨k, rfl⟩ := Int.eq_ofNat_of_zero_le (Int.le_of_not_le some)
      rw [Int.toNat_natCast]
      exact spells_point (by omega) (by omega)

theorem spells_exponential (n : Nat) {exponent : Int} (small : exponent.natAbs < exponentLimit)
    (plus : Bool) :
    Spells (exponential (digitsOf n) exponent plus)
      (n * 10 ^ (exponent + 1 - (digitsOf n).length)) := by
  have power := exponent?_written small plus
  have areDigits := areDigits_digitsOf n
  have value := digitsValue_digitsOf n
  refine ⟨n, _, rfl, fun negative => ?_⟩
  unfold exponential
  cases digits : digitsOf n with
  | nil => exact absurd digits (digitsOf_ne_nil n)
  | cons first rest =>
    rw [digits] at areDigits value
    cases rest with
    | nil =>
      have read := decimal?_digits negative (List.cons_ne_nil first []) areDigits power
      rw [value] at read
      rw [List.append_assoc, show exponent + 1 - ([first].length : Int) = exponent from
        Int.add_sub_cancel exponent 1]
      exact read
    | cons second rest =>
      have read := decimal?_point negative (List.cons_ne_nil first []) (fun c mem => ?_)
        (fun c mem => areDigits c (List.mem_cons_of_mem first mem)) power
      · rw [show digitsValue ([first] ++ second :: rest) = n from value] at read
        rw [List.append_assoc, show exponent + 1 - ((first :: second :: rest).length : Int) =
          exponent - (second :: rest).length by rw [List.length_cons]; omega]
        exact read
      · obtain rfl := List.mem_singleton.mp mem
        exact areDigits _ List.mem_cons_self

theorem length_digitsOf (positive : 0 < n) :
    (10 : ℚ) ^ ((digitsOf n).length - 1 : Int) ≤ n ∧
      (n : ℚ) < 10 ^ ((digitsOf n).length : Int) := by
  have some := List.length_pos_iff.mpr (digitsOf_ne_nil n)
  constructor
  · obtain ⟨k, length⟩ : ∃ k, (digitsOf n).length = k + 1 := ⟨_, (Nat.succ_pred some.ne').symm⟩
    have reached : 10 ^ k ≤ n := by
      by_cases single : k = 0
      · rw [single]
        exact positive
      · refine Nat.not_lt.mp fun less => ?_
        have short := (Nat.length_toDigits_le_iff (by decide) (by omega)).mpr less
        exact absurd (length ▸ short : k + 1 ≤ k) (by omega)
    rw [length, show ((k + 1 : Nat) : Int) - 1 = k by omega, zpow_natCast]
    exact_mod_cast reached
  · have fits := (Nat.length_toDigits_le_iff (b := 10) (n := n) (by decide) some).mp (Nat.le_refl _)
    rw [zpow_natCast]
    exact_mod_cast fits

theorem ReadsBack.short {m : Nat} {e exponent : Int} (reads : ReadsBack m e (n * 10 ^ exponent))
    (canonical : Canonical m e) :
    ((digitsOf n).length + exponent - 1).natAbs < exponentLimit := by
  obtain ⟨least, greatest⟩ := reads.bounds canonical
  have unit : (0 : ℚ) < 10 ^ exponent := by positivity
  obtain ⟨above, under⟩ := length_digitsOf (reads.digits_pos canonical.some)
  have high : (digitsOf n).length - 1 + exponent < 309 := by
    refine (zpow_lt_zpow_iff_right₀ (show (1 : ℚ) < 10 by norm_num)).mp ?_
    calc (10 : ℚ) ^ ((digitsOf n).length - 1 + exponent)
      _ = 10 ^ ((digitsOf n).length - 1 : Int) * 10 ^ exponent := zpow_add₀ (by norm_num) _ _
      _ ≤ n * 10 ^ exponent := by gcongr
      _ < 2 ^ (1024 : Int) := greatest
      _ ≤ 10 ^ (309 : Int) := two_zpow_le_ten_zpow
  have low : -1075 < (digitsOf n).length + exponent := Int.not_le.mp fun far => by
    have powers : (2 : ℚ) ^ (-1075 : Int) < 2 ^ (3 * ((digitsOf n).length + exponent)) :=
      calc (2 : ℚ) ^ (-1075 : Int)
        _ ≤ n * 10 ^ exponent := least
        _ < 10 ^ ((digitsOf n).length : Int) * 10 ^ exponent :=
          mul_lt_mul_of_pos_right under unit
        _ = 10 ^ ((digitsOf n).length + exponent) := (zpow_add₀ (by norm_num) _ _).symm
        _ ≤ 2 ^ (3 * ((digitsOf n).length + exponent)) := ten_zpow_le (by omega)
    have := (zpow_lt_zpow_iff_right₀ one_lt_two).mp powers
    omega
  unfold exponentLimit
  omega

theorem spells_write (form : Notation) {m : Nat} {e : Int} (canonical : Canonical m e) :
    Spells (form.write m e)
      ((shortest form.tie m e).digits * 10 ^ (shortest form.tie m e).exponent) := by
  have short := (readsBack_shortest canonical form.tie).short canonical
  unfold Notation.write
  generalize shortest form.tie m e = d at short ⊢
  dsimp only
  have place : ((digitsOf d.digits).length : Int) + d.exponent - 1 + 1 -
      (digitsOf d.digits).length = d.exponent := by omega
  split
  · have spelled := spells_positional d.digits
      ((digitsOf d.digits).length + d.exponent - 1 + 1) form.wholeMark
    rwa [place] at spelled
  · have spelled := spells_exponential d.digits short form.plus
    rwa [place] at spelled

end

section
variable {x : Float} {s : List Char}

theorem trim_of_decimal? (read : decimal? s = some x) : Text.trim s = s := by
  have decimal := decimal?_isSome.mp (Option.isSome_of_eq_some read)
  refine Text.trim_eq_self fun c mem => ?_
  rcases decimal.chars c mem with e | digit | rfl | rfl | rfl
  · unfold isE at e
    rcases (Bool.or_eq_true _ _).mp e with small | capital
    · obtain rfl := of_decide_eq_true small
      decide
    · obtain rfl := of_decide_eq_true capital
      decide
  · exact isBlank_of_isDigit digit
  · decide
  · decide
  · decide

theorem ofTrimmed_of_decimal? (read : decimal? s = some x) : ofTrimmed s = x := by
  have decimal := decimal?_isSome.mp (Option.isSome_of_eq_some read)
  unfold ofTrimmed
  rw [if_neg (by rintro rfl; cases read)]
  cases found : prefixed? s with
  | some literal =>
    obtain ⟨mark, rfl, m⟩ := prefixed?_eq_some.mp found
    exact absurd decimal (not_isDecimal_prefixed m)
  | none =>
    dsimp only
    rw [if_neg (by rintro (rfl | rfl) <;> cases read), if_neg (by rintro rfl; cases read), read]
    rfl

variable {negative : Bool} {m : Nat} {e : Int}

theorem cast_wholePart (whole : hasFraction m e = false) : (wholePart m e : ℚ) = m * 2 ^ e := by
  have unit := (power_cast_pos (show 0 < 2 by decide) (-e)).ne'
  have value : (wholePart m e : ℚ) * power 2 (-e) = m * power 2 e := by
    exact_mod_cast wholePart_mul whole
  have ratio := power_div 2 e
  push_cast at ratio
  rw [← ratio, ← mul_div_assoc, ← value, mul_div_cancel_right₀ _ unit]

theorem display_spells (parts : binary x = .finite negative m e) (some : m ≠ 0) :
    ∃ s q, (display x).toList = withSign negative s ∧ Spells s q ∧ ReadsBack m e q := by
  have canonical := canonical_of_binary parts some
  unfold display
  rw [String.toList_ofList, parts]
  dsimp only
  rw [if_neg some]
  split
  · -- integers that are small enough are written in full
    rename_i whole
    have fraction : hasFraction m e = false := by simpa using (Bool.and_eq_true_iff.mp whole).1
    refine ⟨_, _, rfl, spells_digitsOf _, ?_⟩
    rw [cast_wholePart fraction]
    exact readsBack_self m e
  · exact ⟨_, _, rfl, spells_write displayNotation canonical,
      readsBack_shortest canonical displayNotation.tie⟩

theorem eq_infinite (parts : binary x = .infinite negative) : x = infinite negative := by
  have bound := x.toBits.toNat_lt
  have word : x.toBits.toNat = signBit negative + infinityBits := by
    unfold binary at parts
    dsimp only at parts
    split at parts
    · split at parts
      · cases parts
        unfold signBit
        simp only [decide_eq_true_eq]
        unfold infinityBits leastNegative binade at *
        split <;> omega
      · cases parts
    · split at parts <;> cases parts
  rw [infinite, ← word, ofBits_ofNat_toBits]

theorem beq_zero_iff : (x == 0) = true ↔ ∃ negative e, binary x = .finite negative 0 e := by
  have zero : unsignedZero (0 : Float).toModel.unpack = .zero .positive := rfl
  rw [beq_iff, unpack_eq, zero]
  constructor
  · rintro ⟨_, same⟩
    cases parts : binary x with
    | nan =>
      rw [parts] at same
      cases same
    | infinite negative =>
      rw [parts] at same
      cases same
    | finite negative m e =>
      by_cases zero : m = 0
      · exact ⟨negative, e, zero ▸ rfl⟩
      · rw [parts, Binary.unpacked_finite zero] at same
        cases same
  · rintro ⟨negative, e, parts⟩
    refine ⟨?_, ?_⟩
    · exact isNaN_of_isFinite (by
        unfold isFinite
        rw [parts])
    · rw [parts]
      rfl

theorem ofText_display_nan (none : x.isNaN = true) : (ofText (display x)).isNaN = true := by
  have shown : display x = "NaN" := by
    unfold display
    rw [isNaN_iff.mp none]
    rfl
  rw [shown]
  decide +kernel

theorem ofText_display_zero (zero : (x == 0) = true) : ofText (display x) = 0 := by
  obtain ⟨negative, e, parts⟩ := beq_zero_iff.mp zero
  have shown : display x = "0" := by
    unfold display
    rw [parts]
    rfl
  rw [shown]
  decide +kernel

theorem ofText_display (number : x.isNaN = false) (other : (x == 0) = false) :
    ofText (display x) = x := by
  cases parts : binary x with
  | nan =>
    rw [isNaN_iff.mpr parts] at number
    cases number
  | infinite negative =>
    have shown : display x = String.ofList (withSign negative "Infinity".toList) := by
      unfold display
      rw [parts]
    rw [eq_infinite parts] at shown ⊢
    rw [shown]
    cases negative <;> decide +kernel
  | finite negative m e =>
    have some : m ≠ 0 := by
      rintro rfl
      rw [beq_zero_iff.mpr ⟨_, _, parts⟩] at other
      cases other
    obtain ⟨s, q, shown, ⟨n, exponent, value, read⟩, reads⟩ := display_spells parts some
    have read := read negative
    rw [nearest_of_readsBack parts some (value ▸ reads)] at read
    unfold ofText
    rw [shown, trim_of_decimal? read, ofTrimmed_of_decimal? read]

end

end Number

open Number in
/-- Displayed numbers are read back. The display form of a number, coerced to a number, is no number
for NaN and otherwise equal to the number that is displayed: zero, without a sign, for both zeros,
and the very same double for every other number and for the infinities. -/
theorem displayed_numbers_read_back (w : World) (x : Float) :
    let read := w.toNumber (.str (w.display (.number x)))
    (x.isNaN = true → read.isNaN = true) ∧ (x.isNaN = false → (read == x) = true) ∧
      ((x == 0) = true → read = 0) ∧ (x.isNaN = false → (x == 0) = false → read = x) := by
  intro read
  have coerced : read = ofText (display x) := by
    show w.toNumber (.str (w.display (.number x))) = _
    rw [w.display_number, w.toNumber_str]
    rfl
  rw [coerced]
  refine ⟨ofText_display_nan, fun number => ?_, ofText_display_zero, ofText_display⟩
  cases zero : x == 0 with
  | true =>
    rw [ofText_display_zero zero]
    exact beq_symm zero
  | false =>
    rw [ofText_display number zero]
    exact beq_self_iff.mpr number

open Number in
/-- NaN, negative zero, the least double and the first one that is displayed with a positive
exponent. -/
theorem unusual_numbers_read_back :
    let w := World.initial
    let least := Float.ofBits 1
    let large := ofNat (10 ^ 21)
    (nan.isNaN = true ∧ (w.toNumber (.str (w.display (.number nan)))).isNaN = true) ∧
    (((-0 : Float) == 0) = true ∧ w.toNumber (.str (w.display (.number (-0)))) = 0) ∧
    (least.isNaN = false ∧ (least == 0) = false ∧
      w.toNumber (.str (w.display (.number least))) = least) ∧
    (large.isNaN = false ∧ w.display (.number large) = "1e+21" ∧
      (w.toNumber (.str (w.display (.number large))) == large) = true) := by
  intro w least large
  obtain ⟨notANumber, _⟩ := displayed_numbers_read_back w nan
  obtain ⟨_, _, zero, _⟩ := displayed_numbers_read_back w (-0)
  obtain ⟨_, _, _, same⟩ := displayed_numbers_read_back w least
  obtain ⟨_, equal, _⟩ := displayed_numbers_read_back w large
  have negativeZero : ((-0 : Float) == 0) = true := by decide +kernel
  have number : least.isNaN = false := by decide +kernel
  have positive : (least == 0) = false := by decide +kernel
  have number' : large.isNaN = false := by decide +kernel
  have shown : w.display (.number large) = "1e+21" := by
    rw [w.display_number]
    decide +kernel
  exact ⟨⟨isNaN_nan, notANumber isNaN_nan⟩, ⟨negativeZero, zero negativeZero⟩,
    ⟨number, positive, same number positive⟩, number', shown, equal number'⟩

end Accessors
