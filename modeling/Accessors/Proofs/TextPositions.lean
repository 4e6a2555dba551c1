import Accessors.Construct
import Accessors.Proofs.CarriedParts
import Accessors.Proofs.EncodedSearch
import Accessors.Proofs.Numerals
import Accessors.Proofs.NumericKeys
import Accessors.Proofs.Slicing
import Accessors.Utility

/-! Positions in texts. All methods count characters, however many bytes these have: a needle is
found at the first position from which the slice that is as long as the needle is the needle, and a
character, a slice of one and an item of the sequence of characters are the same. Main statement:
`text_positions`. -/

namespace Accessors

namespace Text
variable {needle s : List Char} {i : Nat}

theorem indexOf?_eq_some_iff : indexOf? needle s = some i ↔
    i ≤ s.length ∧ needle <+: s.drop i ∧ ∀ j < i, ¬ needle <+: s.drop j := by
  rw [← firstPlace?_eq_indexOf?, firstPlace?, List.findIdx?_eq_some_iff_getElem]
  simp only [List.length_tails, List.getElem_tails, List.isPrefixOf_iff_prefix]
  constructor
  · rintro ⟨lt, here, before⟩
    exact ⟨Nat.le_of_lt_succ lt, here, before⟩
  · rintro ⟨le, here, before⟩
    exact ⟨Nat.lt_succ_of_le le, here, before⟩

theorem includes_eq (needle s : List Char) : includes needle s = (indexOf? needle s).isSome := by
  unfold includes indexOf?
  rw [Option.isSome_map]

theorem isPrefixOf_eq (needle s : List Char) :
    needle.isPrefixOf s = decide (indexOf? needle s = some 0) := by
  rw [Bool.eq_iff_iff, decide_eq_true_eq, indexOf?_eq_some_iff, List.isPrefixOf_iff_prefix]
  simp

end Text

namespace Number
variable {x : Float} {n : Nat}

theorem IsInteger.nonneg (is : IsInteger x n) : 0 ≤ x := by
  obtain ⟨whole, value⟩ := is
  unfold isWhole at whole
  unfold truncated? at value
  cases parts : binary x with
  | finite negative significand exponent =>
    rw [parts] at whole value
    rw [zero_le_iff, parts]
    cases negative with
    | false => exact .inl rfl
    | true =>
      -- a negative number that is no negative integer is a negative zero
      have size : -(wholePart significand exponent : Int) = n := Option.some.inj value
      have exact := wholePart_mul (by simpa using whole)
      rw [show wholePart significand exponent = 0 by omega, Nat.zero_mul] at exact
      exact .inr ((Nat.mul_eq_zero.mp exact.symm).resolve_right
        (Nat.ne_of_gt (power_pos (by decide) _)))
  | _ =>
    rw [parts] at value
    cases value

theorem le_toInt64 (short : n ≤ greatestInt64.toNat) (nonneg : 0 ≤ x)
    (beyond : ∀ i, truncated? x = some i → n ≤ i) : n ≤ (toInt64 x).toNat := by
  rw [zero_le_iff] at nonneg
  unfold truncated? at beyond
  unfold toInt64
  cases parts : binary x with
  | nan =>
    rw [parts] at nonneg
    cases nonneg
  | infinite negative =>
    rw [parts] at nonneg
    cases nonneg
    exact short
  | finite negative significand exponent =>
    rw [parts] at beyond
    have reached := beyond _ rfl
    unfold leastInt64 greatestInt64 at *
    dsimp only
    omega

theorem isInteger_ofNat (safe : n ≤ greatestSafe) : IsInteger (ofNat n) n := by
  have exact := safeInteger?_ofInt (n := n) ((Int.natAbs_natCast n).trans_le safe)
  rw [← ofNat_eq_ofInt] at exact
  unfold safeInteger? at exact
  unfold IsInteger isWhole truncated?
  split at exact
  · rename_i negative significand exponent parts
    dsimp only at exact
    split at exact
    · rename_i bounded
      exact ⟨(Bool.and_eq_true_iff.mp bounded).1, exact⟩
    · cases exact
  · cases exact

theorem toBits_ofNat_of_large (large : greatestSafe < n) :
    1075 * binade ≤ (ofNat n).toBits.toNat ∧ (ofNat n).toBits.toNat ≤ infinityBits := by
  have least := roundedBits_of_large large
  by_cases most : roundedBits n 1 = infinityBits
  · have same : ofNat n = infinite false := by
      unfold ofNat ofSigned rounded infinite
      rw [most]
    rw [same]
    decide +kernel
  · obtain ⟨bits, _⟩ := toNat_toBits_rounded most false
    rw [show (ofNat n).toBits.toNat = roundedBits n 1 from bits.trans (Nat.zero_add _)]
    exact ⟨least, roundedBits_le n 1⟩

theorem ofNat_eq_ofInt_iff {i : Int} (near : i = 0 ∨ i = -1) :
    ofNat n = ofInt i ↔ (n : Int) = i := by
  constructor
  · intro same
    by_cases safe : n ≤ greatestSafe
    · have left := safeInteger?_ofInt (n := n) ((Int.natAbs_natCast n).trans_le safe)
      have right := safeInteger?_ofInt (n := i) (by
        rcases near with rfl | rfl <;> decide)
      rw [← ofNat_eq_ofInt, same, right] at left
      exact (Option.some.inj left).symm
    · obtain ⟨least, greatest⟩ := toBits_ofNat_of_large (Nat.not_le.mp safe)
      rw [same] at least greatest
      rcases near with rfl | rfl
      · exact absurd least (by decide +kernel)
      · exact absurd greatest (by decide +kernel)
  · rintro rfl
    exact ofNat_eq_ofInt n

end Number

namespace World
open Number

def Places (w : World) (p : Value) (i : Nat) : Prop :=
  IsInteger (w.toNumber p) i

instance (w : World) (p : Value) (i : Nat) : Decidable (w.Places p i) :=
  inferInstanceAs (Decidable (IsInteger _ _))

/-- The needle is the slice from a place that is as long as the needle, and is that from no place
before. -/
structure FirstAt (w : World) (t needle : String) (i : Nat) : Prop where
  slice : ∀ p q, w.Places p i → w.Places q (i + needle.toList.length) →
    w.Gives (.str t) "slice" [p, q] (.str needle) w
  first : ∀ j < i, ∀ p q, w.Places p j → w.Places q (j + needle.toList.length) →
    ¬ w.Gives (.str t) "slice" [p, q] (.str needle) w

section
variable {w : World} {p q : Value} {i j : Nat}

theorem Places.defined (placed : w.Places p i) : p.isUndefined = false := by
  cases p with
  | undefined =>
    have number := placed.2
    unfold toNumber toNumberWithin at number
    rw [show truncated? nan = none by decide +kernel] at number
    cases number
  | _ => rfl

theorem Places.relative (placed : w.Places p i) (length default : Nat) :
    w.relative p length default = min i length := by
  unfold World.relative
  simp only [placed.defined, placed.2, Bool.false_eq_true, if_false]
  rw [if_neg (Int.not_lt.mpr (Int.natCast_nonneg i)), Int.toNat_natCast]

theorem Places.slice {α : Type} (start : w.Places p i) (stop : w.Places q j) (xs : List α) :
    w.slice xs [p, q] = (xs.take j).drop i := by
  show (xs.take (w.relative q xs.length xs.length)).drop (w.relative p xs.length 0) = _
  rw [start.relative, stop.relative, ← List.take_eq_take_min]
  by_cases within : i ≤ xs.length
  · rw [Nat.min_eq_left within]
  · have outside : (xs.take j).length ≤ xs.length := List.length_take_le' _ _
    rw [Nat.min_eq_right (Nat.le_of_not_le within), List.drop_eq_nil_of_le outside,
      List.drop_eq_nil_of_le (Nat.le_trans outside (Nat.le_of_not_le within))]

theorem gives_slice_iff {t needle : String} (start : w.Places p i)
    (stop : w.Places q (i + needle.toList.length)) :
    w.Gives (.str t) "slice" [p, q] (.str needle) w ↔ needle.toList <+: t.toList.drop i := by
  have taken : w.slice t.toList [p, q] = (t.toList.drop i).take needle.toList.length := by
    rw [start.slice stop, List.drop_take, Nat.add_sub_cancel_left]
  rw [List.prefix_iff_eq_take, ← taken]
  constructor
  · rintro ⟨method, found, ran⟩
    cases found
    cases ran
    exact String.toList_ofList
  · intro same
    have gives := w.gives_slice_str t [p, q]
    rwa [← same, String.ofList_toList] at gives

theorem run_charAt (w : World) (t : String) (p : Value) : (TextMethod.charAt (.str t) [p]).run w =
    .ok (TextMethod.ofChars (if 0 ≤ w.toNumber p then
      t.toList[(toInt64 (w.toNumber p)).toNat]? else none).toList) w := rfl

theorem gives_charAt {t : String} {c : Char} (short : t.toList.length ≤ greatestInt64.toNat)
    (placed : w.Places p i) (there : t.toList[i]? = some c) :
    w.Gives (.str t) "charAt" [p] (.str (String.ofList [c])) w := by
  have lt := (List.getElem?_eq_some_iff.mp there).1
  have place : toInt64 (w.toNumber p) = i := by
    rw [placed.toInt64, saturated_eq_self_iff, fitsInt64_iff]
    unfold greatestInt64 at short
    omega
  refine ⟨_, rfl, ?_⟩
  rw [run_charAt, if_pos placed.nonneg, place, Int.toNat_natCast, there]
  rfl

theorem gives_charAt_beyond {t : String} (short : t.toList.length ≤ greatestInt64.toNat)
    (beyond : ∀ i, truncated? (w.toNumber p) = some i → t.toList.length ≤ i) :
    w.Gives (.str t) "charAt" [p] (.str "") w := by
  refine ⟨_, rfl, ?_⟩
  have none : (if 0 ≤ w.toNumber p then t.toList[(toInt64 (w.toNumber p)).toNat]? else none) =
      none := by
    split
    · rename_i nonneg
      exact List.getElem?_eq_none (le_toInt64 short nonneg beyond)
    · rfl
  rw [run_charAt, none]
  rfl

theorem firstAt_of_indexOf? {t needle : String}
    (found : Text.indexOf? needle.toList t.toList = some i) : w.FirstAt t needle i := by
  obtain ⟨_, here, before⟩ := Text.indexOf?_eq_some_iff.mp found
  constructor
  · intro p q start stop
    exact (gives_slice_iff start stop).mpr here
  · intro j earlier p q start stop given
    exact before j earlier ((gives_slice_iff start stop).mp given)

theorem gives_slice_one {t : String} {c : Char} (start : w.Places p i) (stop : w.Places q (i + 1))
    (there : t.toList[i]? = some c) :
    w.Gives (.str t) "slice" [p, q] (.str (String.ofList [c])) w := by
  refine (gives_slice_iff start (by rwa [String.toList_ofList])).mpr ?_
  obtain ⟨lt, rfl⟩ := List.getElem?_eq_some_iff.mp there
  rw [String.toList_ofList, List.drop_eq_getElem_cons lt]
  exact List.prefix_append [_] _

end

section
variable (w : World) (t needle : String)

theorem needle_str : TextMethod.needle w [.str needle] = needle.toList :=
  congrArg String.toList (w.display_str needle)

theorem gives_includes : w.Gives (.str t) "includes" [.str needle]
    (.bool (Text.indexOf? needle.toList t.toList).isSome) w := by
  refine ⟨_, rfl, ?_⟩
  rw [← Text.includes_eq, ← needle_str w]
  rfl

theorem gives_startsWith : w.Gives (.str t) "startsWith" [.str needle]
    (.bool (decide (Text.indexOf? needle.toList t.toList = some 0))) w := by
  refine ⟨_, rfl, ?_⟩
  rw [← Text.isPrefixOf_eq, ← needle_str w]
  rfl

theorem gives_indexOf : w.Gives (.str t) "indexOf" [.str needle]
    (((Text.indexOf? needle.toList t.toList).map .ofNat).getD (.ofInt (-1))) w := by
  refine ⟨_, rfl, ?_⟩
  unfold TextMethod.indexOf
  rw [EStateM.run_bind, EStateM.run_get]
  dsimp only
  rw [needle_str, show TextMethod.chars (.str t) = t.toList from rfl]
  cases Text.indexOf? needle.toList t.toList <;> rfl

end

end World

open World Number in
/-- Positions in texts count characters. The place of a needle is minus one just when the text does
not include it. Otherwise it is the first place from which the slice of the needle's size is the
needle, and in UTF-8 the needle's bytes are first found where those of the characters before that
place end; the text starts with the needle just when the place is zero. At every place within the
text the character, the slice of one character and the item of the text as a sequence are the same,
and the character is the empty text beyond. Values that stand for places may be any that coerce to
these integers; up to the greatest safe integer there is a number for each. No text is longer than
the greatest 64-bit integer. -/
theorem text_positions (w : World) (t needle : String)
    (short : t.toList.length ≤ greatestInt64.toNat) :
    (∃ place found starts, w.Gives (.str t) "indexOf" [.str needle] place w ∧
      w.Gives (.str t) "includes" [.str needle] (.bool found) w ∧
      w.Gives (.str t) "startsWith" [.str needle] (.bool starts) w ∧
      (place = .number (-1) ↔ found = false) ∧
      (found = true → ∃ i, place = .ofNat i ∧ w.FirstAt t needle i ∧
        Text.firstPlace? (Text.bytes needle.toList) (Text.bytes t.toList) =
          some (Text.bytes (t.toList.take i)).length) ∧
      (starts = true ↔ place = .number 0)) ∧
    (∃ r w', (NativeType.array.construct [.str t]).run w = .ok (.seq r) w' ∧
      (w'.items r).length = t.toList.length ∧
      ∀ j < t.toList.length, ∃ c : Char, t.toList[j]? = some c ∧
        (w'.items r)[j]? = some (.str (String.ofList [c])) ∧
        ∀ p q, w.Places p j → w.Places q (j + 1) →
          w.Gives (.str t) "charAt" [p] (.str (String.ofList [c])) w ∧
          w.Gives (.str t) "slice" [p, q] (.str (String.ofList [c])) w) ∧
    (∀ p, (∀ i, truncated? (w.toNumber p) = some i → t.toList.length ≤ i) →
      w.Gives (.str t) "charAt" [p] (.str "") w) ∧
    (∃ size, Utility.find? "size" = some size ∧
      ∀ s, (size [.str s]).run w = .ok (.ofNat s.toList.length) w) ∧
    ∀ i ≤ greatestSafe, w.Places (.ofNat i) i := by
  have minusOne : Value.number (-1) = .ofInt (-1) := congrArg Value.number (by decide +kernel)
  have zero : Value.number 0 = .ofInt 0 := congrArg Value.number (by decide +kernel)
  refine ⟨?_, ?_, fun p => gives_charAt_beyond short, ⟨_, rfl, fun s => ?_⟩, fun i safe => ?_⟩
  · refine ⟨_, _, _, w.gives_indexOf t needle, w.gives_includes t needle,
      w.gives_startsWith t needle, ?_⟩
    rw [minusOne, zero]
    cases search : Text.indexOf? needle.toList t.toList with
    | none =>
      have apart : ofInt (-1) ≠ ofInt 0 := by decide +kernel
      refine ⟨iff_of_true rfl rfl, fun found => ?_, ?_⟩
      · cases found
      · exact iff_of_false Bool.false_ne_true fun same => apart (Value.number.inj same)
    | some i =>
      have place {n : Int} (near : n = 0 ∨ n = -1) : Value.ofNat i = .ofInt n ↔ (i : Int) = n :=
        (iff_of_eq (Value.number.injEq ..)).trans (ofNat_eq_ofInt_iff near)
      refine ⟨iff_of_false (fun none => ?_) Bool.noConfusion,
        fun _ => ⟨i, rfl, firstAt_of_indexOf? search, ?_⟩, ?_⟩
      · have := (place (.inr rfl)).mp none
        omega
      · rw [Text.firstPlace?_bytes, search]
        rfl
      · rw [decide_eq_true_eq, Option.some.injEq]
        exact Int.natCast_eq_zero.symm.trans (place (.inl rfl)).symm
  · refine ⟨_, w.push (.seq (characters t.toList).toArray), rfl, ?_,
      fun j lt => ⟨t.toList[j], List.getElem?_eq_getElem lt, ?_, ?_⟩⟩
    · rw [World.items_push]
      exact List.length_map _
    · rw [World.items_push]
      unfold characters
      rw [List.getElem?_map, List.getElem?_eq_getElem lt, Option.map_some]
    · intro p q start stop
      exact ⟨gives_charAt short start (List.getElem?_eq_getElem lt),
        gives_slice_one start stop (List.getElem?_eq_getElem lt)⟩
  · have counted : (characters s.toList).length = s.toList.length := List.length_map _
    rw [← counted]
    rfl
  · unfold World.Places
    rw [show w.toNumber (.ofNat i) = ofNat i from w.toNumber_number _]
    exact isInteger_ofNat safe

open World in
/-- A needle and places among characters of one to four bytes. A text may say the place. -/
theorem positions_among_wide_characters :
    let w := World.initial
    let t := "aé漢😀"
    t.toList.length ≤ Number.greatestInt64.toNat ∧
    (∃ place found, w.Gives (.str t) "indexOf" [.str "漢😀"] place w ∧
      w.Gives (.str t) "includes" [.str "漢😀"] (.bool found) w ∧
      (found = true → ∃ i, place = .ofNat i ∧ w.FirstAt t "漢😀" i ∧
        Text.firstPlace? (Text.bytes "漢😀".toList) (Text.bytes t.toList) =
          some (Text.bytes (t.toList.take i)).length)) ∧
    w.Places (.str " 3 ") 3 ∧ w.Places (.ofNat 4) 4 ∧
    w.Gives (.str t) "charAt" [.str " 3 "] (.str "😀") w ∧
    w.Gives (.str t) "slice" [.str " 3 ", .ofNat 4] (.str "😀") w ∧
    w.Gives (.str t) "charAt" [.ofNat 4] (.str "") w := by
  intro w t
  have short : t.toList.length ≤ Number.greatestInt64.toNat := by decide +kernel
  have third : w.Places (.str " 3 ") 3 := by decide +kernel
  obtain ⟨⟨place, found, _, search, including, _, _, finds, _⟩, ⟨_, _, _, _, items⟩, beyond, _,
    numbers⟩ := text_positions w t "漢😀" short
  have fourth : w.Places (.ofNat 4) 4 := numbers 4 (by decide)
  obtain ⟨c, there, _, both⟩ := items 3 (by decide +kernel)
  obtain rfl : c = '😀' := Option.some.inj (there.symm.trans (by decide +kernel))
  obtain ⟨character, slice⟩ := both _ _ third fourth
  refine ⟨short, ⟨place, found, search, including, finds⟩, third, fourth, character, slice,
    beyond _ fun i value => ?_⟩
  rw [fourth.2] at value
  cases value
  decide +kernel

end Accessors
