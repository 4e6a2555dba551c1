import Accessors.Proofs.Reconstruction
import Mathlib.Data.Nat.Digits.Defs

/-! The grammar of numerals. A text is a number when, without the blanks around it, it is empty, a
literal in base 16, 8 or 2, an `Infinity` with or without a sign, or a decimal, and it is none
otherwise. What starts like a literal is nothing else, and a reader of doubles that knows words is
kept from them by their letters. Main statement: `text_numerals`. -/

namespace Accessors.Number

def DigitIn (base : Nat) (c : Char) (value : Nat) : Prop :=
  value < base ∧ (value < 10 ∧ c.toNat = '0'.toNat + value ∨
    10 ≤ value ∧ (c.toNat + 10 = 'a'.toNat + value ∨ c.toNat + 10 = 'A'.toNat + value))

inductive BaseMark : Nat → Char → Prop
  | hex {mark : Char} (x : mark = 'x' ∨ mark = 'X') : BaseMark 16 mark
  | octal {mark : Char} (o : mark = 'o' ∨ mark = 'O') : BaseMark 8 mark
  | binary {mark : Char} (b : mark = 'b' ∨ mark = 'B') : BaseMark 2 mark

structure IsLiteral (t : List Char) (base : Nat) (values : List Nat) : Prop where
  some_digit : values ≠ []
  spelled : ∃ mark digits, t = '0' :: mark :: digits ∧ BaseMark base mark ∧
    List.Forall₂ (DigitIn base) digits values

def IsSign (s : List Char) : Prop :=
  s = [] ∨ s = ['+'] ∨ s = ['-']

def AreDigits (s : List Char) : Prop :=
  ∀ c ∈ s, isDigit c = true

def IsMantissa (s : List Char) : Prop :=
  ∃ whole fraction, AreDigits whole ∧ AreDigits fraction ∧ (whole ≠ [] ∨ fraction ≠ []) ∧
    (s = whole ++ '.' :: fraction ∨ s = whole ∧ fraction = [])

def IsExponent (s : List Char) : Prop :=
  s = [] ∨ ∃ mark sign digits, (mark = 'e' ∨ mark = 'E') ∧ IsSign sign ∧ AreDigits digits ∧
    digits ≠ [] ∧ s = mark :: (sign ++ digits)

def IsDecimal (t : List Char) : Prop :=
  ∃ sign mantissa exponent, IsSign sign ∧ IsMantissa mantissa ∧ IsExponent exponent ∧
    t = sign ++ (mantissa ++ exponent)

inductive IsNumeral : List Char → Prop
  | empty : IsNumeral []
  | literal {t : List Char} {base : Nat} {values : List Nat} (literal : IsLiteral t base values) :
    IsNumeral t
  | infinity {sign : List Char} (signed : IsSign sign) : IsNumeral (sign ++ "Infinity".toList)
  | decimal {t : List Char} (decimal : IsDecimal t) : IsNumeral t

/-! Digits and literals. -/

section
variable {base : Nat} {c : Char} {value : Nat}

theorem digitIn?_eq_some (few : base ≤ 36) :
    digitIn? base c = some value ↔ DigitIn base c value := by
  have le (d d' : Char) : d ≤ d' ↔ d.toNat ≤ d'.toNat := UInt32.le_iff_toNat_le
  unfold digitIn? DigitIn isDigit digitOf
  simp only [le, decide_eq_true_eq, Char.reduceToNat]
  split
  · split <;> simp <;> omega
  · split
    · split <;> simp <;> omega
    · split
      · split <;> simp <;> omega
      · simp
        omega

theorem BaseMark.few {mark : Char} (m : BaseMark base mark) : base ≤ 36 := by
  cases m <;> decide

theorem prefixed?_eq_some {t digits : List Char} :
    prefixed? t = some (base, digits) ↔ ∃ mark, t = '0' :: mark :: digits ∧ BaseMark base mark := by
  constructor
  · intro found
    unfold prefixed? at found
    split at found
    · split at found
      · cases found
        exact ⟨_, rfl, .hex ‹_›⟩
      · split at found
        · cases found
          exact ⟨_, rfl, .octal ‹_›⟩
        · split at found
          · cases found
            exact ⟨_, rfl, .binary ‹_›⟩
          · cases found
    · cases found
  · rintro ⟨mark, rfl, (x | o | b)⟩
    · rcases x with rfl | rfl <;> rfl
    · rcases o with rfl | rfl <;> rfl
    · rcases b with rfl | rfl <;> rfl

theorem foldlM_map_eq_some {read? : Char → Option Nat} {Reads : Char → Nat → Prop}
    (reads : ∀ c v, read? c = some v ↔ Reads c v) (step : Nat → Nat → Nat) {digits : List Char}
    {start n : Nat} :
    digits.foldlM (fun n c => (read? c).map (step n)) start = some n ↔
      ∃ values, List.Forall₂ Reads digits values ∧ values.foldl step start = n := by
  induction digits generalizing start with
  | nil =>
    constructor
    · rintro ⟨⟩
      exact ⟨[], .nil, rfl⟩
    · rintro ⟨_, ⟨⟩, rfl⟩
      rfl
  | cons c digits ih =>
    simp only [List.foldlM_cons, Option.bind_eq_bind, Option.bind_eq_some_iff,
      Option.map_eq_some_iff, ih, reads]
    constructor
    · rintro ⟨_, ⟨value, digit, rfl⟩, values, spelled, rfl⟩
      exact ⟨value :: values, .cons digit spelled, rfl⟩
    · rintro ⟨_, spelled, rfl⟩
      cases spelled with
      | cons digit spelled => exact ⟨_, ⟨_, digit, rfl⟩, _, spelled, rfl⟩

theorem literalValue_eq_some (few : base ≤ 36) {digits : List Char} {n : Nat} :
    literalValue base digits = some n ↔
      ∃ values, List.Forall₂ (DigitIn base) digits values ∧
        values.foldl (appendDigit base) 0 = n :=
  foldlM_map_eq_some (fun _ _ => digitIn?_eq_some few) (appendDigit base)

theorem appendDigit_eq (positive : 0 < base) {n d : Nat} (small : d + base * n < 2 * binade) :
    appendDigit base n d = d + base * n := by
  have least : 2 * binade ≤ overflow := by decide +kernel
  have factor : n ≤ base * n := Nat.le_mul_of_pos_left n positive
  have finite : n < overflow := by omega
  unfold appendDigit
  rw [if_pos finite, Nat.mul_comm, Nat.add_comm, roundedInteger_eq_self small]

theorem le_foldl_digits (positive : 0 < base) (values : List Nat) (start : Nat) :
    start ≤ values.foldl (fun n d => d + base * n) start := by
  induction values generalizing start with
  | nil => exact Nat.le_refl _
  | cons d values ih =>
    calc start
      _ ≤ base * start := Nat.le_mul_of_pos_left _ positive
      _ ≤ d + base * start := Nat.le_add_left _ _
      _ ≤ _ := ih _

theorem foldl_appendDigit (positive : 0 < base) {values : List Nat} {start : Nat}
    (exact : values.foldl (fun n d => d + base * n) start < 2 * binade) :
    values.foldl (appendDigit base) start = values.foldl (fun n d => d + base * n) start := by
  induction values generalizing start with
  | nil => simp only [List.foldl_nil]
  | cons d values ih =>
    have small : d + base * start < 2 * binade :=
      Nat.lt_of_le_of_lt (le_foldl_digits positive values _) exact
    rw [List.foldl_cons, List.foldl_cons, appendDigit_eq positive small]
    exact ih exact

theorem ofDigits_reverse (base : Nat) (values : List Nat) :
    Nat.ofDigits base values.reverse = values.foldl (fun n d => d + base * n) 0 := by
  rw [Nat.ofDigits_eq_foldr, List.foldr_reverse]
  rfl

end

/-! Decimals. -/

section
variable {s front rest sign body : List Char}

theorem split_digits (digits : AreDigits front)
    (stop : ∀ c, rest.head? = some c → isDigit c = false) :
    (front ++ rest).takeWhile isDigit = front ∧ (front ++ rest).dropWhile isDigit = rest := by
  rw [List.takeWhile_append_of_pos digits, List.dropWhile_append_of_pos digits]
  cases rest with
  | nil => simp
  | cons c rest => simp [stop c rfl]

theorem areDigits_takeWhile (s : List Char) : AreDigits (s.takeWhile isDigit) :=
  fun _ => List.mem_takeWhile_imp

theorem takeSign_spelled (s : List Char) :
    ∃ sign, IsSign sign ∧ s = sign ++ (takeSign s).2 := by
  unfold takeSign
  split
  · exact ⟨['-'], .inr (.inr rfl), rfl⟩
  · exact ⟨['+'], .inr (.inl rfl), rfl⟩
  · exact ⟨[], .inl rfl, rfl⟩

theorem takeSign_append (signed : IsSign sign)
    (plain : ∀ c, body.head? = some c → c ≠ '+' ∧ c ≠ '-') : (takeSign (sign ++ body)).2 = body := by
  rcases signed with rfl | rfl | rfl
  · rw [List.nil_append]
    unfold takeSign
    split
    · exact absurd rfl (plain '-' rfl).2
    · exact absurd rfl (plain '+' rfl).1
    · rfl
  · rfl
  · rfl

theorem digit_plain {c : Char} (digit : isDigit c = true) : c ≠ '+' ∧ c ≠ '-' ∧ c ≠ '.' := by
  refine ⟨?_, ?_, ?_⟩ <;>
  · rintro rfl
    cases digit

theorem head_plain (digits : AreDigits s) : ∀ c, s.head? = some c → c ≠ '+' ∧ c ≠ '-' := by
  intro c first
  obtain ⟨noPlus, noMinus, _⟩ := digit_plain (digits c (List.mem_of_mem_head? first))
  exact ⟨noPlus, noMinus⟩

theorem exponent?_cons {c : Char} : (exponent? (c :: rest)).isSome = true ↔
    (c = 'e' ∨ c = 'E') ∧ (takeSign rest).2 ≠ [] ∧ AreDigits (takeSign rest).2 := by
  simp only [exponent?, AreDigits, List.all_eq_true]
  split
  · rename_i mark
    split <;> simp_all
  · simp_all

theorem exponent?_isSome : (exponent? s).isSome = true ↔ IsExponent s := by
  cases s with
  | nil => exact iff_of_true rfl (.inl rfl)
  | cons c rest =>
    rw [exponent?_cons]
    constructor
    · rintro ⟨mark, some, digits⟩
      obtain ⟨sign, signed, spelled⟩ := takeSign_spelled rest
      exact .inr ⟨c, sign, _, mark, signed, digits, some, congrArg (c :: ·) spelled⟩
    · rintro (none | ⟨mark, sign, digits, e, signed, areDigits, some, spelled⟩)
      · cases none
      · cases spelled
        rw [takeSign_append signed (head_plain areDigits)]
        exact ⟨e, some, areDigits⟩

theorem IsExponent.stop (exponent : IsExponent s) : ∀ c, s.head? = some c →
    isDigit c = false ∧ c ≠ '.' := by
  intro c first
  rcases exponent with rfl | ⟨mark, sign, digits, rfl | rfl, _, _, _, rfl⟩
  · cases first
  · cases first
    decide
  · cases first
    decide

def splitFraction (s : List Char) : List Char × List Char :=
  match s with
  | '.' :: rest => (rest.takeWhile isDigit, rest.dropWhile isDigit)
  | _ => ([], s)

theorem decimal?_eq (s : List Char) :
    let body := (takeSign s).2
    let parts := splitFraction (body.dropWhile isDigit)
    decimal? s =
      if body.takeWhile isDigit = [] ∧ parts.1 = [] then none
      else (exponent? parts.2).map fun exponent =>
        nearest (takeSign s).1 (digitsValue (body.takeWhile isDigit ++ parts.1))
          (exponent - parts.1.length) := by
  rfl

theorem splitFraction_spelled {fraction after : List Char}
    (parts : splitFraction s = (fraction, after)) :
    AreDigits fraction ∧ (s = '.' :: (fraction ++ after) ∨ s = after ∧ fraction = []) := by
  unfold splitFraction at parts
  split at parts
  · cases parts
    rw [List.takeWhile_append_dropWhile]
    exact ⟨areDigits_takeWhile _, .inl rfl⟩
  · cases parts
    exact ⟨fun _ mem => absurd mem List.not_mem_nil, .inr ⟨rfl, rfl⟩⟩

theorem splitFraction_of_other (other : s.head? ≠ some '.') : splitFraction s = ([], s) := by
  unfold splitFraction
  split
  · exact absurd rfl other
  · rfl

theorem decimal?_isSome_iff_parts {whole fraction after : List Char}
    (taken : (takeSign s).2.takeWhile isDigit = whole)
    (parts : splitFraction ((takeSign s).2.dropWhile isDigit) = (fraction, after)) :
    (decimal? s).isSome = true ↔ (whole ≠ [] ∨ fraction ≠ []) ∧ IsExponent after := by
  rw [decimal?_eq, ← exponent?_isSome]
  simp only [taken, parts]
  split
  · rename_i none
    refine iff_of_false Bool.false_ne_true fun some => ?_
    exact some.1.elim (fun some => some none.1) fun some => some none.2
  · rename_i some
    rw [Option.isSome_map]
    exact (and_iff_right (Classical.not_and_iff_not_or_not.mp some)).symm

theorem mantissa_plain (mantissa : IsMantissa s) (rest : List Char) :
    ∀ c, (s ++ rest).head? = some c → c ≠ '+' ∧ c ≠ '-' := by
  obtain ⟨whole, fraction, digits, _, some, spelled⟩ := mantissa
  intro c first
  cases whole with
  | cons d whole =>
    have head : (s ++ rest).head? = .some d := by
      rcases spelled with rfl | ⟨rfl, _⟩ <;> rfl
    exact head_plain digits c (head.symm.trans first)
  | nil =>
    rcases spelled with rfl | ⟨rfl, none⟩
    · cases first
      decide
    · simp [none] at some

theorem decimal?_isSome : (decimal? s).isSome = true ↔ IsDecimal s := by
  constructor
  · intro taken
    obtain ⟨sign, signed, spelled⟩ := takeSign_spelled s
    have split := List.takeWhile_append_dropWhile (p := isDigit) (l := (takeSign s).2)
    have areWhole := areDigits_takeWhile (takeSign s).2
    cases parts : splitFraction ((takeSign s).2.dropWhile isDigit) with
    | mk fraction after =>
      obtain ⟨some, exponent⟩ := (decimal?_isSome_iff_parts rfl parts).mp taken
      obtain ⟨areFraction, point | ⟨none, noFraction⟩⟩ := splitFraction_spelled parts
      · refine ⟨sign, _, after, signed, ⟨_, fraction, areWhole, areFraction, some, .inl rfl⟩,
          exponent, ?_⟩
        rw [List.append_assoc, List.cons_append, ← point, split]
        exact spelled
      · refine ⟨sign, _, after, signed,
          ⟨_, fraction, areWhole, areFraction, some, .inr ⟨rfl, noFraction⟩⟩, exponent, ?_⟩
        rw [← none, split]
        exact spelled
  · rintro ⟨sign, mantissa, exponent, signed, isMantissa, isExponent, rfl⟩
    have body := takeSign_append signed (mantissa_plain isMantissa exponent)
    obtain ⟨whole, fraction, areWhole, areFraction, some, rfl | ⟨rfl, rfl⟩⟩ := isMantissa
    · rw [List.append_assoc, List.cons_append] at body ⊢
      have point : ∀ c, ('.' :: (fraction ++ exponent)).head? = .some c → isDigit c = false := by
        rintro c ⟨⟩
        rfl
      obtain ⟨taken, rest⟩ := split_digits areWhole point
      have parts : splitFraction ('.' :: (fraction ++ exponent)) = (fraction, exponent) :=
        Prod.ext_iff.mpr (split_digits areFraction fun c first => (isExponent.stop c first).1)
      rw [← body] at taken rest
      exact (decimal?_isSome_iff_parts taken ((congrArg splitFraction rest).trans parts)).mpr
        ⟨some, isExponent⟩
    · obtain ⟨taken, rest⟩ := split_digits areWhole fun c first => (isExponent.stop c first).1
      have parts : splitFraction exponent = ([], exponent) :=
        splitFraction_of_other fun first => (isExponent.stop _ first).2 rfl
      rw [← body] at taken rest
      exact (decimal?_isSome_iff_parts taken ((congrArg splitFraction rest).trans parts)).mpr
        ⟨some, isExponent⟩

end

/-! What is read is a number. -/

section
variable {x : Float}

theorem isFinite_of_exponent (ordinary : x.toBits.toNat / binade % 2048 ≠ 2047) :
    isFinite x = true := by
  unfold isFinite binary
  dsimp only
  rw [if_neg ordinary]
  by_cases least : x.toBits.toNat / binade % 2048 = 0
  · rw [if_pos least]
  · rw [if_neg least]

theorem isNaN_of_isFinite (finite : isFinite x = true) : x.isNaN = false :=
  beq_self_iff.mp (beq_self finite)

theorem isNaN_infinite (negative : Bool) : (infinite negative).isNaN = false := by
  cases negative <;> decide +kernel

theorem isNaN_nan : nan.isNaN = true := by decide +kernel

theorem isNaN_rounded (negative : Bool) (n d : Nat) : (rounded negative n d).isNaN = false := by
  by_cases most : roundedBits n d = infinityBits
  · have same : rounded negative n d = infinite negative := by
      unfold rounded infinite
      rw [most]
    rw [same, isNaN_infinite]
  · obtain ⟨bits, exponent, ordinary⟩ := toNat_toBits_rounded most negative
    refine isNaN_of_isFinite (isFinite_of_exponent ?_)
    rw [bits, exponent]
    exact Nat.ne_of_lt ordinary

theorem isNaN_nearest (negative : Bool) (significand : Nat) (exponent : Int) :
    (nearest negative significand exponent).isNaN = false := by
  unfold nearest
  split
  · exact isNaN_rounded negative 0 1
  · split
    · exact isNaN_infinite negative
    · exact isNaN_rounded _ _ _

theorem isNaN_decimal? {s : List Char} (read : decimal? s = some x) : x.isNaN = false := by
  rw [decimal?_eq] at read
  split at read
  · cases read
  · obtain ⟨_, _, rfl⟩ := Option.map_eq_some_iff.mp read
    exact isNaN_nearest _ _ _

theorem isNaN_getD {read : Option Float} (number : ∀ x, read = some x → x.isNaN = false) :
    (read.getD nan).isNaN = false ↔ read.isSome = true := by
  cases read with
  | none =>
    refine iff_of_false (fun number => ?_) Bool.false_ne_true
    exact Bool.false_ne_true (number.symm.trans isNaN_nan)
  | some x => exact iff_of_true (number x rfl) rfl

end

/-! Readers with words. -/

def IsWord (word s : List Char) : Prop :=
  List.Forall₂ (fun c small => c = small ∨ c.toNat + 32 = small.toNat) s word

def IsSpecial (s : List Char) : Prop :=
  ∃ sign body, IsSign sign ∧ s = sign ++ body ∧
    (IsWord "inf".toList body ∨ IsWord "infinity".toList body ∨ IsWord "nan".toList body)

/-- A reader of doubles that reads the decimals, and besides them no text but its words. -/
structure IsReader (read? : List Char → Option Float) : Prop where
  decimals : ∀ s x, decimal? s = some x → read? s = some x
  words : ∀ s, decimal? s = none → (read? s).isSome = true → IsSpecial s

structure IsAlphabetic (isLetter : Char → Bool) : Prop where
  ascii : ∀ c, c.isAlpha = true → isLetter c = true
  other : ∀ c, isDigit c = true ∨ c = '+' ∨ c = '-' ∨ c = '.' → isLetter c = false

def isE (c : Char) : Bool :=
  c = 'e' || c = 'E'

/-- A reader that is not asked about texts with letters but without an `e`. -/
def guarded (isLetter : Char → Bool) (read? : List Char → Option Float) (s : List Char) :
    Option Float :=
  if s.any isLetter && !s.any isE then none else read? s

section
variable {s word : List Char}

theorem isAlpha_iff {c : Char} :
    c.isAlpha = true ↔ 65 ≤ c.toNat ∧ c.toNat ≤ 90 ∨ 97 ≤ c.toNat ∧ c.toNat ≤ 122 := by
  show (decide ('A'.val ≤ c.val ∧ c.val ≤ 'Z'.val) ||
    (decide ('a'.val ≤ c.val) && decide (c.val ≤ 'z'.val))) = true ↔ _
  rw [Bool.or_eq_true, Bool.and_eq_true, decide_eq_true_eq, decide_eq_true_eq, decide_eq_true_eq]
  rfl

theorem IsWord.letters (spelled : IsWord word s)
    (small : word.all (fun c => decide (97 ≤ c.toNat ∧ c.toNat ≤ 122 ∧ c.toNat ≠ 101)) = true) :
    ∀ c ∈ s, c.isAlpha = true ∧ isE c = false := by
  induction spelled with
  | nil => exact fun _ mem => absurd mem List.not_mem_nil
  | @cons c letter _ _ same _ ih =>
    have range : 97 ≤ c.toNat ∧ c.toNat ≤ 122 ∧ c.toNat ≠ 101 ∨
        65 ≤ c.toNat ∧ c.toNat ≤ 90 ∧ c.toNat ≠ 69 := by
      have bounds := of_decide_eq_true (List.all_eq_true.mp small letter List.mem_cons_self)
      rcases same with rfl | capital
      · exact .inl bounds
      · omega
    intro d mem
    rcases List.mem_cons.mp mem with rfl | later
    · constructor
      · exact isAlpha_iff.mpr (by omega)
      · refine Bool.eq_false_iff.mpr fun e => ?_
        rcases (by simpa [isE] using e : d = 'e' ∨ d = 'E') with rfl | rfl
        · exact absurd range (by decide)
        · exact absurd range (by decide)
    · exact ih (Bool.and_eq_true_iff.mp small).2 d later

theorem IsSpecial.letters (special : IsSpecial s) : (∃ c ∈ s, c.isAlpha = true) ∧
    ∀ c ∈ s, isE c = false := by
  obtain ⟨sign, body, signed, rfl, named⟩ := special
  obtain ⟨some, letters⟩ : body ≠ [] ∧ ∀ c ∈ body, c.isAlpha = true ∧ isE c = false := by
    rcases named with word | word | word
    all_goals
      refine ⟨?_, word.letters (by decide)⟩
      rintro rfl
      cases word
  refine ⟨?_, fun c mem => ?_⟩
  · obtain ⟨c, mem⟩ := List.exists_mem_of_ne_nil body some
    exact ⟨c, List.mem_append_right sign mem, (letters c mem).1⟩
  · rcases List.mem_append.mp mem with first | later
    · rcases signed with rfl | rfl | rfl
      · cases first
      · cases List.mem_singleton.mp first
        rfl
      · cases List.mem_singleton.mp first
        rfl
    · exact (letters c later).2

theorem IsSign.chars (signed : IsSign s) : ∀ c ∈ s, c = '+' ∨ c = '-' := by
  rcases signed with rfl | rfl | rfl <;> simp

theorem IsDecimal.chars (decimal : IsDecimal s) : ∀ c ∈ s,
    isE c = true ∨ isDigit c = true ∨ c = '+' ∨ c = '-' ∨ c = '.' := by
  obtain ⟨sign, mantissa, exponent, signed, ⟨whole, fraction, areWhole, areFraction, _, spelled⟩,
    isExponent, rfl⟩ := decimal
  have fromSign {sign : List Char} {c : Char} (signed : IsSign sign) (mem : c ∈ sign) :
      isE c = true ∨ isDigit c = true ∨ c = '+' ∨ c = '-' ∨ c = '.' := by
    rcases signed.chars c mem with plus | minus
    · exact .inr (.inr (.inl plus))
    · exact .inr (.inr (.inr (.inl minus)))
  intro c mem
  rcases List.mem_append.mp mem with mem | mem
  · exact fromSign signed mem
  rcases List.mem_append.mp mem with mem | mem
  · have parts : c ∈ whole ∨ c = '.' ∨ c ∈ fraction := by
      rcases spelled with rfl | ⟨rfl, _⟩
      · simpa using mem
      · exact .inl mem
    rcases parts with digit | point | digit
    · exact .inr (.inl (areWhole c digit))
    · exact .inr (.inr (.inr (.inr point)))
    · exact .inr (.inl (areFraction c digit))
  · rcases isExponent with rfl | ⟨mark, sign, digits, e, signed, areDigits, _, rfl⟩
    · cases mem
    · rcases List.mem_cons.mp mem with rfl | mem
      · exact .inl (by simpa [isE] using e)
      · rcases List.mem_append.mp mem with mem | mem
        · exact fromSign signed mem
        · exact .inr (.inl (areDigits c mem))

theorem guarded_eq {isLetter : Char → Bool} {read? : List Char → Option Float}
    (alphabetic : IsAlphabetic isLetter) (reader : IsReader read?) (s : List Char) :
    guarded isLetter read? s = decimal? s := by
  unfold guarded
  cases read : decimal? s with
  | some x =>
    have decimal : IsDecimal s := decimal?_isSome.mp (read ▸ rfl)
    have passed : ¬ (s.any isLetter && !s.any isE) = true := by
      simp only [Bool.and_eq_true, List.any_eq_true, Bool.not_eq_true', List.any_eq_false]
      rintro ⟨⟨c, mem, letter⟩, none⟩
      rcases decimal.chars c mem with e | other
      · exact none c mem e
      · rw [alphabetic.other c other] at letter
        cases letter
    rw [if_neg passed, reader.decimals s x read]
  | none =>
    split
    · rfl
    · rename_i asked
      refine Option.not_isSome_iff_eq_none.mp fun known => asked ?_
      obtain ⟨⟨c, mem, letter⟩, none⟩ := (reader.words s read known).letters
      simp only [Bool.and_eq_true, List.any_eq_true, Bool.not_eq_true', List.any_eq_false]
      exact ⟨⟨c, mem, alphabetic.ascii c letter⟩, fun c mem => Bool.eq_false_iff.mp (none c mem)⟩

end

/-! Texts. -/

/-- The number of a trimmed text, for a way of reading what has no other form. -/
def ofTrimmedBy (read? : List Char → Option Float) (s : List Char) : Float :=
  if s = [] then 0
  else
    match prefixed? s with
    | some (base, digits) =>
      if digits = [] then nan else ((literalValue base digits).map ofNat).getD nan
    | none =>
      if s = "Infinity".toList ∨ s = "+Infinity".toList then infinity
      else if s = "-Infinity".toList then infinite true
      else (read? s).getD nan

theorem ofTrimmed_eq : ofTrimmed = ofTrimmedBy decimal? := rfl

section
variable {t digits : List Char} {base : Nat} {mark : Char}

theorem ofTrimmed_prefixed (found : prefixed? t = some (base, digits)) :
    ofTrimmed t =
      if digits = [] then nan else ((literalValue base digits).map ofNat).getD nan := by
  unfold ofTrimmed
  rw [found]
  split
  · rename_i empty
    subst empty
    cases found
  · rfl

theorem not_isDecimal_prefixed (m : BaseMark base mark) : ¬ IsDecimal ('0' :: mark :: digits) := by
  have unread : decimal? ('0' :: mark :: digits) = none := by
    cases m with
    | hex x | octal x | binary x => rcases x with rfl | rfl <;> rfl
  rw [← decimal?_isSome, unread]
  exact Bool.false_ne_true

theorem isNumeral_prefixed (m : BaseMark base mark) : IsNumeral ('0' :: mark :: digits) ↔
    ∃ values, values ≠ [] ∧ List.Forall₂ (DigitIn base) digits values := by
  constructor
  · intro numeral
    generalize whole : '0' :: mark :: digits = t at numeral
    cases numeral with
    | empty => cases whole
    | literal literal =>
      obtain ⟨some, mark', digits', rfl, m', spelled⟩ := literal
      cases whole
      have first : prefixed? ('0' :: mark :: digits) = .some (base, digits) :=
        prefixed?_eq_some.mpr ⟨mark, rfl, m⟩
      rw [prefixed?_eq_some.mpr ⟨mark, rfl, m'⟩] at first
      cases first
      exact ⟨_, some, spelled⟩
    | infinity signed => rcases signed with rfl | rfl | rfl <;> cases whole
    | decimal decimal =>
      subst whole
      exact absurd decimal (not_isDecimal_prefixed m)
  · rintro ⟨values, some, spelled⟩
    exact .literal ⟨some, mark, digits, rfl, m, spelled⟩

theorem isNumeral_unprefixed (some : t ≠ []) (found : prefixed? t = none) :
    IsNumeral t ↔ (∃ sign, IsSign sign ∧ t = sign ++ "Infinity".toList) ∨ IsDecimal t := by
  constructor
  · intro numeral
    cases numeral with
    | empty => exact absurd rfl some
    | literal literal =>
      obtain ⟨_, mark, digits, rfl, m, _⟩ := literal
      rw [prefixed?_eq_some.mpr ⟨mark, rfl, m⟩] at found
      cases found
    | infinity signed => exact .inl ⟨_, signed, rfl⟩
    | decimal decimal => exact .inr decimal
  · rintro (⟨sign, signed, rfl⟩ | decimal)
    · exact .infinity signed
    · exact .decimal decimal

theorem isNaN_literal (digits : List Char) (few : base ≤ 36) :
    (if digits = [] then nan else ((literalValue base digits).map ofNat).getD nan).isNaN = false ↔
      ∃ values, values ≠ [] ∧ List.Forall₂ (DigitIn base) digits values := by
  by_cases none : digits = []
  · subst none
    rw [if_pos rfl, isNaN_nan]
    refine iff_of_false Bool.false_ne_true.symm ?_
    rintro ⟨values, some, spelled⟩
    cases spelled
    exact some rfl
  · have number : ∀ x, (literalValue base digits).map ofNat = some x → x.isNaN = false := by
      intro x read
      obtain ⟨n, _, rfl⟩ := Option.map_eq_some_iff.mp read
      exact isNaN_rounded false n 1
    rw [if_neg none, isNaN_getD number, Option.isSome_map, Option.isSome_iff_exists]
    simp only [literalValue_eq_some few]
    constructor
    · rintro ⟨_, values, spelled, _⟩
      refine ⟨values, ?_, spelled⟩
      rintro rfl
      cases spelled
      exact none rfl
    · rintro ⟨values, _, spelled⟩
      exact ⟨_, values, spelled, rfl⟩

theorem isNaN_ofTrimmed : (ofTrimmed t).isNaN = false ↔ IsNumeral t := by
  by_cases empty : t = []
  · subst empty
    exact iff_of_true (by decide +kernel) .empty
  cases found : prefixed? t with
  | some literal =>
    obtain ⟨base, digits⟩ := literal
    rw [ofTrimmed_prefixed found]
    obtain ⟨mark, rfl, m⟩ := prefixed?_eq_some.mp found
    rw [isNumeral_prefixed m, isNaN_literal digits m.few]
  | none =>
    rw [isNumeral_unprefixed empty found]
    unfold ofTrimmed
    rw [if_neg empty, found]
    dsimp only
    split
    · rename_i infinity
      refine iff_of_true (isNaN_infinite false) (.inl ?_)
      rcases infinity with rfl | rfl
      · exact ⟨[], .inl rfl, rfl⟩
      · exact ⟨['+'], .inr (.inl rfl), rfl⟩
    · rename_i notPositive
      split
      · rename_i negative
        exact iff_of_true (isNaN_infinite true) (.inl ⟨['-'], .inr (.inr rfl), negative⟩)
      · rename_i notNegative
        rw [isNaN_getD fun x read => isNaN_decimal? read, decimal?_isSome]
        refine (or_iff_right ?_).symm
        rintro ⟨sign, rfl | rfl | rfl, rfl⟩
        · exact notPositive (.inl rfl)
        · exact notPositive (.inr rfl)
        · exact notNegative rfl

theorem ofNat_eq_ofInt (n : Nat) : ofNat n = ofInt n := by
  unfold ofNat ofInt
  rw [decide_eq_false (Int.not_lt.mpr (Int.natCast_nonneg n)), Int.natAbs_natCast]

theorem ofTrimmed_literal {values : List Nat} (literal : IsLiteral t base values)
    (exact : Nat.ofDigits base values.reverse ≤ greatestSafe) :
    ofTrimmed t = ofNat (Nat.ofDigits base values.reverse) := by
  obtain ⟨some, mark, digits, rfl, m, spelled⟩ := literal
  have positive : 0 < base := by cases m <;> decide
  rw [ofDigits_reverse] at exact ⊢
  have value : literalValue base digits = .some (values.foldl (fun n d => d + base * n) 0) :=
    (literalValue_eq_some m.few).mpr
      ⟨values, spelled, foldl_appendDigit positive (Nat.lt_succ_of_le exact)⟩
  have given : digits ≠ [] := by
    rintro rfl
    cases spelled
    exact some rfl
  rw [ofTrimmed_prefixed (prefixed?_eq_some.mpr ⟨mark, rfl, m⟩), if_neg given, value]
  rfl

theorem ofTrimmed_infinity {sign : List Char} (signed : IsSign sign) :
    ofTrimmed (sign ++ "Infinity".toList) = infinite (decide (sign = ['-'])) := by
  rcases signed with rfl | rfl | rfl <;> rfl

end

end Accessors.Number

namespace Accessors

open Number

theorem World.toNumber_str (w : World) (s : String) :
    w.toNumber (.str s) = ofTrimmed (Text.trim s.toList) := by
  unfold toNumber toNumberWithin
  rfl

/-- Numeric coercion of a text goes by its grammar. Without the blanks around it the text is a number
just when it is a numeral: zero when it is empty, the positional value for a literal up to the
greatest safe integer, infinite for an infinity. It makes no difference whether what has none of
these forms is read as a decimal, or by a reader that knows words too and is not asked about texts
with letters but without an `e`. -/
theorem text_numerals (w : World) (s : String) :
    let t := Text.trim s.toList
    let x := w.toNumber (.str s)
    (x.isNaN = false ↔ IsNumeral t) ∧ (t = [] → x = 0) ∧
    (∀ base values, IsLiteral t base values → Nat.ofDigits base values.reverse < 2 ^ 53 →
      safeInteger? x = some (Nat.ofDigits base values.reverse : Nat)) ∧
    (∀ sign, IsSign sign → t = sign ++ "Infinity".toList →
      binary x = .infinite (decide (sign = ['-']))) ∧
    ∀ isLetter read?, IsAlphabetic isLetter → IsReader read? →
      x = ofTrimmedBy (guarded isLetter read?) t := by
  intro t x
  have coerced : x = ofTrimmed t := w.toNumber_str s
  refine ⟨?_, fun empty => ?_, fun base values literal exact => ?_,
    fun sign signed spelled => ?_, fun isLetter read? alphabetic reader => ?_⟩
  · rw [coerced]
    exact isNaN_ofTrimmed
  · rw [coerced, empty]
    rfl
  · have safe : Nat.ofDigits base values.reverse ≤ greatestSafe := Nat.le_of_lt_succ exact
    rw [coerced, ofTrimmed_literal literal safe, ofNat_eq_ofInt]
    exact safeInteger?_ofInt ((Int.natAbs_natCast _).trans_le safe)
  · rw [coerced, spelled, ofTrimmed_infinity signed]
    cases decide (sign = ['-']) <;> decide +kernel
  · rw [coerced, funext (guarded_eq alphabetic reader), ofTrimmed_eq]

/-- A reader that knows the words in any case and with a sign. -/
def wordReader (s : List Char) : Option Float :=
  (decimal? s).or
    (if (takeSign s).2.map Char.toLower = "nan".toList then some nan
    else if (takeSign s).2.map Char.toLower = "inf".toList ∨
        (takeSign s).2.map Char.toLower = "infinity".toList then
      some (infinite (takeSign s).1)
    else none)

theorem isWord_toLower (s : List Char) : IsWord (s.map Char.toLower) s := by
  have small (c : Char) : c = c.toLower ∨ c.toNat + 32 = c.toLower.toNat := by
    unfold Char.toLower
    split
    · rename_i capital
      have bound : c.toNat ≤ 90 := UInt32.le_iff_toNat_le.mp capital.2
      have sum : (c.val + 32).toNat = (c.toNat + 32) % 2 ^ 32 := UInt32.toNat_add c.val 32
      exact .inr ((sum.trans (Nat.mod_eq_of_lt (by omega))).symm)
    · exact .inl rfl
  induction s with
  | nil => exact .nil
  | cons c s ih => exact .cons (small c) ih

theorem isReader_wordReader : IsReader wordReader where
  decimals s x read := by
    unfold wordReader
    rw [read]
    rfl
  words s unread known := by
    obtain ⟨sign, signed, spelled⟩ := takeSign_spelled s
    have word := isWord_toLower (takeSign s).2
    refine ⟨sign, _, signed, spelled, ?_⟩
    unfold wordReader at known
    rw [unread, Option.none_or] at known
    split at known
    · rename_i nan
      exact .inr (.inr (nan ▸ word))
    · split at known
      · rename_i inf
        rcases inf with inf | infinity
        · exact .inl (inf ▸ word)
        · exact .inr (.inl (infinity ▸ word))
      · cases known

theorem isAlphabetic_isAlpha : IsAlphabetic Char.isAlpha where
  ascii _ letter := letter
  other c other := by
    refine Bool.eq_false_iff.mpr fun letter => ?_
    have range := isAlpha_iff.mp letter
    rcases other with digit | rfl | rfl | rfl
    · have least : 48 ≤ c.toNat ∧ c.toNat ≤ 57 := of_decide_eq_true digit
      omega
    · exact absurd range (by decide)
    · exact absurd range (by decide)
    · exact absurd range (by decide)

/-- A literal in base two is the number five, and `Inf` is none, though it is a word of a reader. -/
theorem literal_read_and_word_not :
    let x := World.initial.toNumber (.str " 0b101 ")
    let y := World.initial.toNumber (.str "Inf")
    safeInteger? x = some 5 ∧ y.isNaN = true ∧ (wordReader "Inf".toList).isSome = true ∧
      y = ofTrimmedBy (guarded Char.isAlpha wordReader) "Inf".toList := by
  intro x y
  have trimmed : Text.trim " 0b101 ".toList = "0b101".toList := by decide +kernel
  have plain : Text.trim "Inf".toList = "Inf".toList := by decide +kernel
  obtain ⟨_, _, literals, _⟩ := text_numerals World.initial " 0b101 "
  obtain ⟨_, _, _, _, read⟩ := text_numerals World.initial "Inf"
  rw [trimmed] at literals
  rw [plain] at read
  have five : IsLiteral "0b101".toList 2 [1, 0, 1] :=
    { some_digit := List.cons_ne_nil _ _
      spelled := by
        refine ⟨'b', ['1', '0', '1'], rfl, .binary (.inl rfl), .cons ?_ (.cons ?_ (.cons ?_ .nil))⟩
        all_goals exact ⟨by decide, .inl (by decide)⟩ }
  have same := read Char.isAlpha wordReader isAlphabetic_isAlpha isReader_wordReader
  refine ⟨literals 2 [1, 0, 1] five (by decide), ?_, by decide +kernel, same⟩
  rw [show y = _ from same]
  decide +kernel

end Accessors
