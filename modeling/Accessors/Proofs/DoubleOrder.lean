import Accessors.Proofs.Doubles
import Mathlib.Algebra.Order.Group.Int
import Mathlib.Data.Prod.Lex
import Mathlib.Order.Compare

/-! The order of doubles. Comparing two doubles that are numbers is comparing where they stand: by
sign, then by exponent and by significand, away from zero. So what holds in a linear order holds of
them. Main statements: `lt_iff_rank` and `le_iff_rank`. -/

namespace Accessors.Number

open Float.Model Float.Model.UnpackedFloat

def rank : UnpackedFloat → Int ×ₗ Int ×ₗ Int
  | .infinity .negative => toLex (-2, toLex (0, 0))
  | .finite .negative significand exponent _ => toLex (-1, toLex (-exponent, -significand))
  | .zero _ | .notANumber => toLex (0, toLex (0, 0))
  | .finite .positive significand exponent _ => toLex (1, toLex (exponent, significand))
  | .infinity .positive => toLex (2, toLex (0, 0))

theorem compare_toLex (a b a' b' c c' : Int) :
    compare (toLex (a, toLex (b, c))) (toLex (a', toLex (b', c'))) =
      (compare a a').then ((compare b b').then (compare c c')) := by
  rw [Prod.Lex.compare_def, compareLex, compareOn, compareOn]
  show Ordering.then _ (compare (toLex (b, c)) (toLex (b', c'))) = _
  rw [Prod.Lex.compare_def]
  rfl

theorem compare_neg (a b : Int) : compare (-a) (-b) = (compare a b).swap := by
  rw [← cmp_eq_compare, ← cmp_eq_compare, cmp_swap]
  exact StrictAnti.cmp_map_eq (fun _ _ => Int.neg_lt_neg) a b

theorem compare_natCast (m n : Nat) : compare (m : Int) n = compare m n := by
  rw [← cmp_eq_compare, ← cmp_eq_compare]
  exact StrictMono.cmp_map_eq (f := fun n : Nat => (n : Int)) (fun _ _ => Int.ofNat_lt.mpr) m n

theorem compare_eq_rank {x y : UnpackedFloat} (number : x.isNaN = false)
    (number' : y.isNaN = false) : x.compare y = some (compare (rank x) (rank y)) := by
  cases x with
  | notANumber => cases number
  | infinity sign =>
    cases y with
    | notANumber => cases number'
    | zero other => cases sign <;> rfl
    | infinity other | finite other => cases sign <;> cases other <;> rfl
  | zero sign =>
    cases y with
    | notANumber => cases number'
    | zero other => rfl
    | infinity other | finite other => cases other <;> rfl
  | finite sign m e =>
    cases y with
    | notANumber => cases number'
    | zero other => cases sign <;> rfl
    | infinity other => cases sign <;> cases other <;> rfl
    | finite other m' e' =>
      cases sign with
      | positive =>
        cases other with
        | positive =>
          unfold rank
          rw [compare_toLex, compare_natCast]
          rfl
        | negative => rfl
      | negative =>
        cases other with
        | positive => rfl
        | negative =>
          unfold rank
          rw [compare_toLex, compare_neg e e', compare_neg m m', compare_natCast,
            ← Ordering.swap_then]
          rfl

theorem bne_self (x : Float) : (x != x) = x.isNaN := by
  unfold bne
  cases nan : x.isNaN with
  | false => rw [beq_self_iff.mpr nan, Bool.not_true]
  | true =>
    have unlike : (x == x) = false := Bool.eq_false_iff.mpr fun same =>
      Bool.false_ne_true ((beq_self_iff.mp same).symm.trans nan)
    rw [unlike, Bool.not_false]

section
variable {x y : Float} (number : x.isNaN = false) (number' : y.isNaN = false)
include number number'

theorem lt_iff_rank : x < y ↔ rank x.toModel.unpack < rank y.toModel.unpack := by
  show decide (x.toModel.unpack.lt y.toModel.unpack = true) = true ↔ _
  rw [decide_eq_true_eq]
  show (x.toModel.unpack.compare y.toModel.unpack == some .lt) = true ↔ _
  rw [compare_eq_rank number number', beq_iff_eq, Option.some.injEq, compare_lt_iff_lt]

theorem le_iff_rank : x ≤ y ↔ rank x.toModel.unpack ≤ rank y.toModel.unpack := by
  show decide (x.toModel.unpack.le y.toModel.unpack = true) = true ↔ _
  rw [decide_eq_true_eq]
  show (x.toModel.unpack.compare y.toModel.unpack).any (·.isLE) = true ↔ _
  rw [compare_eq_rank number number', Option.any_some, ← Ordering.ne_gt_iff_isLE]
  exact compare_le_iff_le

end

end Accessors.Number
