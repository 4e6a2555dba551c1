import Accessors.Proofs.DisplayedNumbers
import Accessors.Proofs.KeyedPath

/-! Numbers as keys, and their texts as keys. A number and its displayed text name the same entry of
a record, and resolve to the same position of a sequence; a number too large for an integer of 64
bits resolves to no position, and its text does neither. Main statement: `number_key_as_text`. -/

namespace Accessors

namespace Number
variable {x : Float} {i : Int}

theorem roundedInteger_of_whole {negative : Bool} {significand : Nat} {exponent : Int}
    (parts : binary x = .finite negative significand exponent)
    (whole : hasFraction significand exponent = false) :
    roundedInteger (wholePart significand exponent) = wholePart significand exponent := by
  by_cases small : wholePart significand exponent < 2 * binade
  · exact roundedInteger_eq_self small
  · have few := significand_lt parts
    have value := wholePart_mul whole
    have high : 0 < exponent := Int.not_le.mp fun low => by
      rw [power_of_nonpos 2 low, Nat.mul_one] at value
      have := Nat.le_mul_of_pos_right (wholePart significand exponent)
        (power_pos (show 0 < 2 by decide) (-exponent))
      omega
    have normal : binade ≤ significand := by
      obtain ⟨_, _, ⟨_, _, low⟩ | ⟨_, rfl, _⟩⟩ := binary_finite parts
      · omega
      · exact Nat.le_add_right _ _
    have log := log2_of_normal ⟨normal, few⟩ value
    rw [power_of_nonpos 2 (show -exponent ≤ 0 by omega), Nat.mul_one] at value
    unfold roundedInteger
    rw [if_neg small]
    dsimp only
    rw [show ((wholePart significand exponent).log2 : Int) - 52 = exponent by omega, value,
      Nat.mul_comm significand, roundedQuotient_mul _ _ (power_pos (by decide) _), Nat.mul_comm]

theorem throughDouble_of_whole (whole : isWhole x = true) (is : truncated? x = some i)
    (fits : fitsInt64 i = true) : throughDouble i = i := by
  unfold isWhole at whole
  unfold truncated? at is
  cases parts : binary x with
  | finite negative significand exponent =>
    rw [parts] at whole is
    cases is
    have rounds := roundedInteger_of_whole parts (by simpa using whole)
    obtain ⟨least, greatest⟩ := of_decide_eq_true fits
    unfold throughDouble
    rw [natAbs_signed, rounds]
    have sign := signed_natAbs (signed negative (wholePart significand exponent))
    rw [natAbs_signed] at sign
    rw [sign]
    omega
  | _ =>
    rw [parts] at is
    cases is

theorem toInt64_of_truncated (is : truncated? x = some i) :
    toInt64 x = max leastInt64 (min greatestInt64 i) := by
  unfold truncated? at is
  unfold toInt64
  cases parts : binary x with
  | finite negative significand exponent =>
    rw [parts] at is
    cases is
    rfl
  | _ =>
    rw [parts] at is
    cases is

theorem truncated_of_isWhole (whole : isWhole x = true) : ∃ i, truncated? x = some i := by
  unfold isWhole at whole
  unfold truncated?
  cases parts : binary x with
  | finite negative significand exponent => exact ⟨_, rfl⟩
  | _ =>
    rw [parts] at whole
    cases whole

end Number

open Number

/-- A number and its text stand for the same integer, or the text for none and the number for an end
of the integers of 64 bits. -/
theorem indexKey?_display (n : Float) :
    indexKey? (.str (display n)) = indexKey? (.number n) ∨
      indexKey? (.str (display n)) = none ∧
        (indexKey? (.number n) = some greatestInt64 ∨ indexKey? (.number n) = some leastInt64) := by
  unfold indexKey?
  dsimp only
  rw [int64?_display]
  cases whole : isWhole n with
  | false =>
    left
    cases truncated? n <;> rfl
  | true =>
    obtain ⟨i, is⟩ := truncated_of_isWhole whole
    rw [is, toInt64_of_truncated is, Option.filter_some]
    cases fits : fitsInt64 i with
    | true =>
      left
      obtain ⟨least, greatest⟩ := of_decide_eq_true fits
      have same : max leastInt64 (min greatestInt64 i) = i := by omega
      rw [same]
      exact congrArg some (throughDouble_of_whole whole is fits)
    | false =>
      right
      have outside : ¬ (leastInt64 ≤ i ∧ i ≤ greatestInt64) := of_decide_eq_false fits
      refine ⟨rfl, ?_⟩
      unfold leastInt64 greatestInt64 at *
      by_cases above : i ≤ 0
      · right
        exact congrArg some (by omega)
      · left
        exact congrArg some (by omega)

section
variable {size : Nat}

theorem position?_extreme {key : Value} (short : size < greatestInt64.toNat)
    (extreme : indexKey? key = some greatestInt64 ∨ indexKey? key = some leastInt64) {place : Nat}
    (within : place ≤ size) : position? key size ≠ some place := by
  intro resolves
  obtain ⟨index, reads, placed⟩ := Option.bind_eq_some_iff.mp resolves
  dsimp only at placed
  unfold greatestInt64 leastInt64 at *
  rcases extreme with most | least
  · obtain rfl := Option.some.inj (most.symm.trans reads)
    have := Option.some.inj placed
    omega
  · obtain rfl := Option.some.inj (least.symm.trans reads)
    rw [if_neg (show ¬ (0 : Int) ≤ -9223372036854775808 by decide), if_neg (by omega)] at placed
    cases placed

theorem position?_display (short : size < greatestInt64.toNat) (n : Float) (place : Nat)
    (within : place ≤ size) :
    position? (.number n) size = some place ↔ position? (.str (display n)) size = some place := by
  rcases indexKey?_display n with same | ⟨none, extreme⟩
  · unfold position?
    rw [same]
  · refine iff_of_false (position?_extreme short extreme within) ?_
    unfold position?
    rw [none]
    nofun

end

/-- The same ending, or two refusals of the key that change nothing. -/
inductive Ending.Agree {α : Type} (w : World) : Ending α → Ending α → Prop
  | same (ending : Ending α) : Agree w ending ending
  | refused (text text' : String) :
    Agree w (.error (.error (.invalidKey text)) w) (.error (.error (.invalidKey text')) w)

section
variable {w : World} {key key' : Value} {r : Ref}

theorem setKey_agrees (same : ∀ place ≤ (w.sequence r).size,
      position? key (w.sequence r).size = some place ↔
        position? key' (w.sequence r).size = some place) (v : Value) :
    Ending.Agree w ((setKey (.seq r) key v).run w) ((setKey (.seq r) key' v).run w) := by
  rcases setKey_seq w r key v with ⟨place, within, resolves, ran⟩ | ⟨nowhere, more, ran⟩ <;>
    rcases setKey_seq w r key' v with ⟨place', within', resolves', ran'⟩ | ⟨nowhere', more', ran'⟩
  · obtain rfl := Option.some.inj (((same place within).mp resolves).symm.trans resolves')
    rw [ran, ran']
    exact .same _
  · exact absurd ((same place within).mp resolves) (nowhere' place within)
  · exact absurd ((same place' within').mpr resolves') (nowhere place' within')
  · rw [ran, ran']
    exact .refused _ _

theorem World.getKey_agrees (same : ∀ place ≤ (w.sequence r).size,
      position? key (w.sequence r).size = some place ↔
        position? key' (w.sequence r).size = some place)
    (other : key.text? ≠ some "length") (other' : key'.text? ≠ some "length") :
    w.getKey (.seq r) key = w.getKey (.seq r) key' := by
  have item (k : Value) (found : Value) :
      (position? k (w.sequence r).size).bind ((w.sequence r)[·]?) = some found ↔
        ∃ place ≤ (w.sequence r).size, position? k (w.sequence r).size = some place ∧
          (w.sequence r)[place]? = some found := by
    rw [Option.bind_eq_some_iff]
    constructor
    · rintro ⟨place, resolves, held⟩
      obtain ⟨within, _⟩ := Array.getElem?_eq_some_iff.mp held
      exact ⟨place, Nat.le_of_lt within, resolves, held⟩
    · rintro ⟨place, _, resolves, held⟩
      exact ⟨place, resolves, held⟩
  have items : (position? key (w.sequence r).size).bind ((w.sequence r)[·]?) =
      (position? key' (w.sequence r).size).bind ((w.sequence r)[·]?) := by
    refine Option.ext fun found => ?_
    rw [item, item]
    exact exists_congr fun place => and_congr_right fun within =>
      and_congr_left fun _ => same place within
  unfold World.getKey
  simp only [if_neg other, if_neg other', items]

end

theorem accessKey_agrees {w : World} {c key key' : Value} (gets : w.getKey c key = w.getKey c key')
    (sets : ∀ v, Ending.Agree w ((setKey c key v).run w) ((setKey c key' v).run w))
    (shown : w.display key = w.display key') (args : List Value)
    (next : Value → Option Constructor → Action Outcome) :
    Ending.Agree w ((accessKey c key args next).run w) ((accessKey c key' args next).run w) := by
  unfold accessKey
  rw [EStateM.run_bind, EStateM.run_bind, EStateM.run_get]
  dsimp only
  rw [gets, shown]
  rcases args with _ | ⟨last, _ | ⟨second, rest⟩⟩
  · exact .same _
  · dsimp only
    split
    · exact .same _
    · have set := sets last
      rw [EStateM.run_bind, EStateM.run_bind]
      generalize (setKey c key last).run w = ending at set
      generalize (setKey c key' last).run w = ending' at set
      cases set with
      | same ending => exact .same _
      | refused text text' => exact .refused text text'
  · exact .same _

theorem text?_display (n : Float) : (Value.str (display n)).text? ≠ some "length" := by
  obtain ⟨negative, first, rest, shown, starts⟩ := display_starts n
  intro same
  rw [Option.some.inj same] at shown
  cases negative with
  | true => cases shown
  | false =>
    cases shown
    revert starts
    decide

/-- A sequence or record, and a number as the key. Its displayed text is no instruction, and used as
the key in place of the number it has the same outcome and the same effects, whatever arguments
follow; or both fail because of the key, and nothing changes. A sequence has room for fewer items
than there are integers of 64 bits. -/
theorem number_key_as_text (e : Engine) {w : World} {c : Value} (container : c.isContainer = true)
    (short : ∀ r, c = .seq r → (w.sequence r).size < greatestInt64.toNat) (n : Float)
    (args : List Value) :
    Instruction.parse (display n) = .key (display n) ∧
      Ending.Agree w ((evaluate e c (.number n) args none).run w)
        ((evaluate e c (.str (display n)) args none).run w) := by
  have reads := Instruction.parse_display n
  have text : (Value.str (display n)).isPlainKey = true := decide_eq_true reads
  have shown : w.display (.number n) = w.display (.str (display n)) := by
    rw [w.display_number, w.display_str]
  have access (next : Value → Option Constructor → Action Outcome) :
      Ending.Agree w ((accessKey c (.number n) args next).run w)
        ((accessKey c (.str (display n)) args next).run w) := by
    cases c with
    | seq r =>
      have same := position?_display (short r rfl) n
      have other : (Value.number n).text? ≠ some "length" := by rintro ⟨⟩
      exact accessKey_agrees (World.getKey_agrees same other (text?_display n)) (setKey_agrees same)
        shown args next
    | record r =>
      refine accessKey_agrees ?_ (fun v => ?_) shown args next
      · unfold World.getKey
        simp only [shown]
      · have sets : (setKey (.record r) (.number n) v).run w =
            (setKey (.record r) (.str (display n)) v).run w := by
          unfold setKey
          rw [EStateM.run_bind, EStateM.run_bind, EStateM.run_get]
          simp only [shown]
        rw [sets]
        exact .same _
    | _ => cases container
  have passes (key : Value) (plain : key.isPlainKey = true) := w.passes_container container plain
  refine ⟨reads, ?_⟩
  cases args with
  | nil =>
    unfold evaluate
    rw [evaluateWith_passes e (passes _ rfl), evaluateWith_passes e (passes _ text)]
    exact access _
  | cons first rest =>
    unfold evaluate
    dsimp only
    rw [evaluateWith_passes e (passes _ rfl), evaluateWith_passes e (passes _ text)]
    exact access _

/-- In a sequence of one number, minus one ends as its text does, and so does a number just above
the integers of 64 bits. -/
theorem last_and_largest_as_text :
    let w : World := { World.initial with objects := #[.seq #[.number 1]] }
    let run (key : Value) := (evaluate (engine 1) (.seq 0) key [.str "x"] none).run w
    Ending.Agree w (run (.number (-1))) (run (.str "-1")) ∧
      Ending.Agree w (run (.number 9223372036854775808)) (run (.str "9223372036854775808")) := by
  intro w run
  have short : ∀ r, Value.seq 0 = .seq r → (w.sequence r).size < greatestInt64.toNat := by
    rintro r ⟨⟩
    decide
  have last := number_key_as_text (engine 1) (w := w) (c := .seq 0) rfl short (-1) [.str "x"]
  have largest :=
    number_key_as_text (engine 1) (w := w) (c := .seq 0) rfl short 9223372036854775808 [.str "x"]
  rw [show display (-1) = "-1" by decide +kernel] at last
  rw [show display 9223372036854775808 = "9223372036854775808" by decide +kernel] at largest
  exact ⟨last.2, largest.2⟩

end Accessors
