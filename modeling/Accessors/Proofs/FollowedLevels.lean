import Accessors.Proofs.Conversion
import Mathlib.Data.Fintype.Card
import Mathlib.Tactic.Choose

/-! As many levels as there are objects tell the number of any value, also of one that contains
itself. Only a sequence of one item is followed, so if one more level changes the number, the value
leads through as many sequences, and the last of them has its number at once. These are different,
since the number of each comes at another level. Hence new objects change no number. Main
statements: `toNumberWithin_of_levels` and `Grows.toNumber`. -/

namespace Accessors.World

def Deepens (w : World) (n : Nat) (v : Value) : Prop :=
  w.toNumberWithin (n + 1) v ≠ w.toNumberWithin n v

variable {w : World} {v : Value} {r : Ref} {m n : Nat}

theorem toNumberWithin_single {u : Value} (single : w.sequence r = #[u]) (levels : Nat) :
    w.toNumberWithin (levels + 1) (.seq r) = w.toNumberWithin levels u := by
  rw [toNumberWithin, single]
  rfl

theorem toNumberWithin_other (other : (w.sequence r).size ≠ 1) (m n : Nat) :
    w.toNumberWithin (m + 1) (.seq r) = w.toNumberWithin (n + 1) (.seq r) := by
  simp only [toNumberWithin, other, if_false]

namespace Deepens

theorem seq (deepens : w.Deepens n v) : ∃ r, v = .seq r := by
  cases v with
  | seq r => exact ⟨r, rfl⟩
  | _ =>
    refine absurd ?_ deepens
    unfold toNumberWithin
    rfl

theorem inner (deepens : w.Deepens (n + 1) (.seq r)) :
    ∃ u, w.sequence r = #[u] ∧ w.Deepens n u := by
  by_cases single : (w.sequence r).size = 1
  · obtain ⟨u, one⟩ := Array.size_eq_one_iff.mp single
    refine ⟨u, one, ?_⟩
    unfold Deepens at deepens
    rwa [toNumberWithin_single one, toNumberWithin_single one] at deepens
  · exact absurd (toNumberWithin_other single (n + 1) n) deepens

theorem not_succ (first : w.Deepens 0 v) : ¬ w.Deepens (n + 1) v := by
  intro later
  obtain ⟨r, rfl⟩ := first.seq
  obtain ⟨u, single, inner⟩ := later.inner
  obtain ⟨s, rfl⟩ := inner.seq
  exact first (toNumberWithin_single single 0)

theorem unique (first : w.Deepens m v) (second : w.Deepens n v) : m = n := by
  -- both lead through the same single item
  induction m generalizing n v with
  | zero =>
    cases n with
    | zero => rfl
    | succ n => exact absurd second first.not_succ
  | succ m ih =>
    cases n with
    | zero => exact absurd first second.not_succ
    | succ n =>
      obtain ⟨r, rfl⟩ := first.seq
      obtain ⟨u, single, first⟩ := first.inner
      obtain ⟨u', single', second⟩ := second.inner
      obtain rfl : u = u' := by simpa [single] using single'
      rw [ih first second]

theorem at_level (deepens : w.Deepens n v) (le : m ≤ n) :
    ∃ r, w.Reaches v r ∧ w.Deepens m (.seq r) := by
  induction n generalizing v with
  | zero =>
    obtain ⟨r, rfl⟩ := deepens.seq
    obtain rfl := Nat.le_zero.mp le
    exact ⟨r, .start rfl, deepens⟩
  | succ n ih =>
    obtain ⟨r, rfl⟩ := deepens.seq
    rcases Nat.of_le_succ le with before | rfl
    · obtain ⟨u, single, inner⟩ := deepens.inner
      obtain ⟨s, reaches, found⟩ := ih inner before
      have mem : u ∈ w.items r := by
        unfold items
        simp [single]
      exact ⟨s, reaches.inside rfl (mem_held_of_items mem), found⟩
    · exact ⟨r, .start rfl, deepens⟩

theorem lt (deepens : w.Deepens n v) (present : ∀ s, w.Reaches v s → s < w.objects.size) :
    n < w.objects.size := by
  -- a sequence for each level up to this one, the first included
  choose place reaches found using fun level : Fin (n + 1) =>
    deepens.at_level (Nat.le_of_lt_succ level.isLt)
  have different : Function.Injective
      fun level => (⟨place level, present _ (reaches level)⟩ : Fin w.objects.size) := by
    intro i j same
    have here := found i
    rw [Fin.mk.inj same] at here
    exact Fin.ext (here.unique (found j))
  have counted := Fintype.card_le_of_injective _ different
  rwa [Fintype.card_fin, Fintype.card_fin] at counted

end Deepens

theorem toNumberWithin_of_levels (present : ∀ s, w.Reaches v s → s < w.objects.size)
    (enough : w.levels ≤ n) : w.toNumberWithin n v = w.toNumber v := by
  induction n, enough using Nat.le_induction with
  | base => rfl
  | succ n enough ih =>
    have same : w.toNumberWithin (n + 1) v = w.toNumberWithin n v :=
      not_not.mp fun deepens => Nat.not_lt.mpr enough (Deepens.lt deepens present)
    rw [same, ih]

theorem SameOn.toNumberWithin_eq {S : Ref → Prop} {w' : World} (same : SameOn S w w')
    (on : v.On S) (levels : Nat) : w'.toNumberWithin levels v = w.toNumberWithin levels v := by
  induction levels generalizing v with
  | zero =>
    cases v with
    | date r => simp only [World.toNumberWithin, same.moment r (on r rfl)]
    | _ => simp only [World.toNumberWithin]
  | succ levels ih =>
    cases v with
    | date r => simp only [World.toNumberWithin, same.moment r (on r rfl)]
    | seq r =>
      have here := on r rfl
      by_cases single : (w.sequence r).size = 1
      · obtain ⟨u, one⟩ := Array.size_eq_one_iff.mp single
        have mem : u ∈ w.items r := by
          unfold items
          simp [one]
        rw [toNumberWithin_single one, toNumberWithin_single ((same.sequence r here).trans one)]
        exact ih (same.closed r here u (mem_held_of_items mem))
      · simp only [World.toNumberWithin, same.sequence r here, single, if_false]
    | _ => simp only [World.toNumberWithin]

theorem Grows.toNumber {w' : World} (grows : w.Grows w')
    (present : ∀ s, w.Reaches v s → s < w.objects.size) : w'.toNumber v = w.toNumber v := by
  have same : SameOn (w.Reaches v) w w' :=
    Region.Evolves.sameOn grows (fun _ reaches _ held _ next => reaches.step held next)
      fun s reaches new => absurd (present s reaches) (Nat.not_lt.mpr new)
  rw [World.toNumber, same.toNumberWithin_eq (fun _ => .start)]
  exact toNumberWithin_of_levels present grows.size

end Accessors.World
