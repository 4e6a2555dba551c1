/-! Values of digits. Two neighbouring digits are one digit in the base squared, so a run of
digits is read by pairing them in rounds until few are left; even very long runs then cost
little more than their last products. `pairedValue_eq` says that the number of rounds does
not matter, and `digitsValue_append` is the rule of positions. -/

namespace Accessors.Number

def isDigit (c : Char) : Bool :=
  decide ('0' ≤ c ∧ c ≤ '9')

def digitOf (c : Char) : Nat :=
  c.toNat - '0'.toNat

/-- The number that digits stand for, the lowest digit first. -/
def positionalValue (base : Nat) (digits : List Nat) : Nat :=
  digits.foldr (fun d n => d + base * n) 0

/-- The digits in the base squared, again the lowest first. -/
def pairDigits (base : Nat) : List Nat → List Nat
  | low :: high :: rest => (low + base * high) :: pairDigits base rest
  | rest => rest

/-- The number that digits stand for, read after some rounds of pairing. -/
def pairedValue : (rounds base : Nat) → List Nat → Nat
  | 0, base, digits => positionalValue base digits
  | rounds + 1, base, digits => pairedValue rounds (base * base) (pairDigits base digits)

/-- The number that decimal digits stand for, the highest digit first. -/
def digitsValue (digits : List Char) : Nat :=
  pairedValue digits.length.log2 10 (digits.reverse.map digitOf)

theorem positionalValue_pairDigits (base : Nat) (digits : List Nat) :
    positionalValue (base * base) (pairDigits base digits) = positionalValue base digits := by
  fun_induction pairDigits base digits with
  | case1 low high rest ih =>
    unfold positionalValue at ih ⊢
    rw [List.foldr_cons, List.foldr_cons, List.foldr_cons, ih, Nat.mul_add, Nat.mul_assoc,
      Nat.add_assoc]
  | case2 rest short =>
    match rest, short with
    | [], _ => rfl
    | [_], _ => simp [positionalValue]
    | low :: high :: rest, short => exact absurd rfl (short low high rest)

theorem pairedValue_eq (rounds base : Nat) (digits : List Nat) :
    pairedValue rounds base digits = positionalValue base digits := by
  induction rounds generalizing base digits with
  | zero => rfl
  | succ rounds ih => rw [pairedValue, ih, positionalValue_pairDigits]

theorem digitsValue_eq (digits : List Char) :
    digitsValue digits = digits.foldl (fun n c => digitOf c + 10 * n) 0 := by
  rw [digitsValue, pairedValue_eq, positionalValue, List.foldr_map, List.foldr_reverse]

theorem digitsValue_append (digits : List Char) (c : Char) :
    digitsValue (digits ++ [c]) = 10 * digitsValue digits + digitOf c := by
  rw [digitsValue_eq, digitsValue_eq, List.foldl_append]
  exact Nat.add_comm _ _

end Accessors.Number
