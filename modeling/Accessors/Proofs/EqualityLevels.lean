import Accessors.Proofs.StructuralEquality
import Mathlib.Order.Interval.Finset.Nat

/-! How many levels an equality looks down. However far that is, it is symmetric and transitive, also
between values that contain themselves, and more levels only make more values equal. So the
collections fall into ever fewer groups; and since the first level that joins none is the last one
that could, as many levels as there are objects are enough. Main statements:
`equalWithin_of_levels` and `Grows.equal`. -/

namespace Accessors.World
variable {w : World} {a b c : Value} {k : Nat}

theorem equalWithin_zero : w.equalWithin 0 a b = true ↔
    a.same b = true ∨ ∃ r s, a = .date r ∧ b = .date s ∧ w.moment r = w.moment s := by
  unfold equalWithin Value.same
  cases a with
  | date r =>
    cases b with
    | date s =>
      dsimp only
      rw [decide_eq_true_eq, beq_iff_eq]
      constructor
      · intro moment
        exact .inr ⟨r, s, rfl, rfl, moment⟩
      · rintro (rfl | ⟨_, _, ⟨⟩, ⟨⟩, moment⟩)
        · rfl
        · exact moment
    | _ => simp
  | _ => cases b <;> simp

theorem equalWithin_symm (eq : w.equalWithin k a b = true) : w.equalWithin k b a = true := by
  induction k generalizing a b with
  | zero =>
    rw [equalWithin_zero] at eq ⊢
    rcases eq with same | ⟨r, s, rfl, rfl, eq⟩
    · exact .inl (Value.same_symm same)
    · exact .inr ⟨s, r, rfl, rfl, eq.symm⟩
  | succ k ih =>
    rw [equalWithin_succ] at eq ⊢
    exact eq.symm fun _ _ _ _ => ih

theorem equalWithin_trans (eq : w.equalWithin k a b = true) (eq' : w.equalWithin k b c = true) :
    w.equalWithin k a c = true := by
  induction k generalizing a b c with
  | zero =>
    rw [equalWithin_zero] at eq eq' ⊢
    rcases eq with same | ⟨r, s, rfl, rfl, eq⟩ <;> rcases eq' with same' | ⟨s', t, is, rfl, eq'⟩
    · exact .inl (Value.same_trans same same')
    · subst is
      rcases Value.same_iff.mp same with ⟨_, _, _, ⟨⟩, _⟩ | ⟨rfl, _⟩
      exact .inr ⟨s', t, rfl, rfl, eq'⟩
    · rcases Value.same_iff.mp same' with ⟨_, _, ⟨⟩, _⟩ | ⟨rfl, _⟩
      exact .inr ⟨r, s, rfl, rfl, eq⟩
    · cases is
      exact .inr ⟨r, t, rfl, rfl, eq.trans eq'⟩
  | succ k ih =>
    rw [equalWithin_succ] at eq eq' ⊢
    exact eq.trans eq' fun _ _ _ _ _ => ih

theorem Comparison.of_same {R : Value → Value → Prop} (same : a.same b = true) :
    w.Comparison R a b := by
  rcases Value.same_iff.mp same with ⟨x, y, rfl, rfl, eq⟩ | ⟨rfl, other⟩
  · exact .number eq
  · cases a with
    | number x => exact absurd rfl (other x)
    | date r => exact .date rfl
    | _ => constructor

theorem equalWithin_mono (eq : w.equalWithin k a b = true) : w.equalWithin (k + 1) a b = true := by
  induction k generalizing a b with
  | zero =>
    rw [equalWithin_succ]
    rcases equalWithin_zero.mp eq with same | ⟨r, s, rfl, rfl, moment⟩
    · exact .of_same same
    · exact .date moment
  | succ k ih =>
    rw [equalWithin_succ] at eq ⊢
    exact eq.mono fun _ _ _ _ => ih

theorem equalWithin_self (other : ∀ x, a ≠ .number x) : w.equalWithin k a a = true := by
  have same : a.same a = true := Value.same_iff.mpr (.inr ⟨rfl, other⟩)
  cases k with
  | zero => exact equalWithin_zero.mpr (.inl same)
  | succ k => exact (equalWithin_succ k).mpr (.of_same same)

theorem equal_comm (a b : Value) : w.equal a b = w.equal b a :=
  Bool.eq_iff_iff.mpr ⟨equalWithin_symm, equalWithin_symm⟩

theorem equal_trans (eq : w.equal a b = true) (eq' : w.equal b c = true) : w.equal a c = true :=
  equalWithin_trans eq eq'

def collectionAt (w : World) (r : Ref) : Value :=
  match w.objects[r]? with
  | some (.seq _) => .seq r
  | some (.record _) => .record r
  | _ => .entity r

def Settled (w : World) (k : Nat) : Prop :=
  ∀ a b, w.equalWithin (k + 1) a b = true → w.equalWithin k a b = true

namespace Settled

theorem succ (settled : w.Settled k) : w.Settled (k + 1) := by
  intro a b eq
  rw [equalWithin_succ] at eq ⊢
  exact eq.mono fun _ _ _ _ => settled _ _

theorem equalWithin_eq (settled : w.Settled k) {n : Nat} (le : k ≤ n) (a b : Value) :
    w.equalWithin n a b = w.equalWithin k a b := by
  have above (n : Nat) (le : k ≤ n) : w.Settled n := by
    induction n, le using Nat.le_induction with
    | base => exact settled
    | succ n _ ih => exact ih.succ
  induction n, le using Nat.le_induction with
  | base => rfl
  | succ n le ih =>
    rw [← ih, Bool.eq_iff_iff]
    exact ⟨above n le a b, equalWithin_mono⟩

end Settled

theorem exists_collectionAt {item : Value} (child : item ∈ w.children a) :
    ∃ r : Nat, r < w.levels ∧ a = w.collectionAt r := by
  cases a with
  | seq r =>
    change item ∈ (w.sequence r).toList at child
    unfold sequence at child
    split at child
    case h_1 found =>
      exact ⟨r, (Array.getElem?_eq_some_iff.mp found).1, by rw [collectionAt, found]⟩
    case h_2 => cases child
  | record r =>
    change item ∈ (w.fields r).values at child
    unfold fields at child
    split at child
    case h_1 found =>
      exact ⟨r, (Array.getElem?_eq_some_iff.mp found).1, by rw [collectionAt, found]⟩
    case h_2 => cases child
  | _ => cases child

theorem settled_of_collections (each : ∀ r s : Nat, r < w.levels → s < w.levels →
      w.equalWithin (k + 2) (w.collectionAt r) (w.collectionAt s) = true →
      w.equalWithin (k + 1) (w.collectionAt r) (w.collectionAt s) = true) :
    w.Settled (k + 1) := by
  intro a b eq
  by_cases some : ∃ x ∈ w.children a, ∃ y, y ∈ w.children b
  · obtain ⟨x, child, y, child'⟩ := some
    obtain ⟨r, lt, rfl⟩ := exists_collectionAt child
    obtain ⟨s, lt', rfl⟩ := exists_collectionAt child'
    exact each r s lt lt' eq
  · rw [equalWithin_succ] at eq ⊢
    exact eq.mono fun x child y child' => absurd ⟨x, child, y, child'⟩ some

def repeats (w : World) (k : Nat) : Finset Nat :=
  (Finset.Ico 1 w.levels).filter fun r =>
    ∃ s < r, w.equalWithin k (w.collectionAt s) (w.collectionAt r) = true

theorem mem_repeats {r : Nat} : r ∈ w.repeats k ↔ r < w.levels ∧
    ∃ s < r, w.equalWithin k (w.collectionAt s) (w.collectionAt r) = true := by
  unfold repeats
  rw [Finset.mem_filter, Finset.mem_Ico]
  constructor
  · rintro ⟨⟨_, lt⟩, found⟩
    exact ⟨lt, found⟩
  · rintro ⟨lt, s, earlier, eq⟩
    exact ⟨⟨by omega, lt⟩, s, earlier, eq⟩

theorem repeats_subset (w : World) (k : Nat) : w.repeats k ⊆ w.repeats (k + 1) := by
  intro r
  rw [mem_repeats, mem_repeats]
  rintro ⟨lt, s, earlier, eq⟩
  exact ⟨lt, s, earlier, equalWithin_mono eq⟩

theorem collectionAt_ne_number (r : Ref) (x : Float) : w.collectionAt r ≠ .number x := by
  unfold collectionAt
  split <;> simp

theorem equal_of_repeats (same : w.repeats (k + 1) = w.repeats k) {r s : Nat} (lt : r < w.levels)
    (lt' : s < w.levels)
    (eq : w.equalWithin (k + 1) (w.collectionAt r) (w.collectionAt s) = true) :
    w.equalWithin k (w.collectionAt r) (w.collectionAt s) = true := by
  -- the later one of the two equals a still earlier one already a level below
  have earlier {r s : Nat} (lt : s < w.levels) (before : r < s)
      (eq : w.equalWithin (k + 1) (w.collectionAt r) (w.collectionAt s) = true) :
      ∃ t < s, w.equalWithin k (w.collectionAt t) (w.collectionAt s) = true :=
    (mem_repeats.mp (same ▸ mem_repeats.mpr ⟨lt, r, before, eq⟩)).2
  induction sum : r + s using Nat.strongRecOn generalizing r s with
  | ind n ih =>
    rcases Nat.lt_trichotomy r s with before | rfl | after
    · obtain ⟨t, less, joined⟩ := earlier lt' before eq
      have rest := equalWithin_trans eq (equalWithin_symm (equalWithin_mono joined))
      exact equalWithin_trans (ih (r + t) (by omega) lt (by omega) rest rfl) joined
    · exact equalWithin_self (collectionAt_ne_number r)
    · obtain ⟨t, less, joined⟩ := earlier lt after (equalWithin_symm eq)
      have rest := equalWithin_trans (equalWithin_mono joined) eq
      exact equalWithin_trans (equalWithin_symm joined)
        (ih (t + s) (by omega) (by omega) lt' rest rfl)

theorem settled_iff : w.Settled (k + 1) ↔ (w.repeats (k + 1)).card = (w.repeats (k + 2)).card := by
  constructor
  · intro settled
    refine congrArg _ (Finset.Subset.antisymm (w.repeats_subset _) fun r => ?_)
    rw [mem_repeats, mem_repeats]
    rintro ⟨lt, s, earlier, eq⟩
    exact ⟨lt, s, earlier, settled _ _ eq⟩
  · intro size
    have same := Finset.eq_of_subset_of_card_le (w.repeats_subset (k + 1)) (Nat.le_of_eq size.symm)
    exact settled_of_collections fun r s lt lt' => equal_of_repeats same.symm lt lt'

/-- Where there are objects, the level of their number is settled: of the levels from the first on,
each that is not joins a collection to an earlier one, which the first collection never is. -/
theorem settled_levels (some : 0 < w.levels) : w.Settled w.levels := by
  have growing : Monotone fun k => (w.repeats (k + 1)).card :=
    monotone_nat_of_le_succ fun k => Finset.card_le_card (w.repeats_subset (k + 1))
  have bounded (k : Nat) : (w.repeats (k + 1)).card ≤ w.levels - 1 :=
    (Finset.card_filter_le _ _).trans (Nat.le_of_eq (Nat.card_Ico 1 w.levels))
  have last := Nat.stabilises_of_monotone growing bounded
    (fun k same => settled_iff.mp (settled_iff.mpr same).succ) (Nat.sub_le w.levels 1)
  obtain ⟨n, levels⟩ : ∃ n, w.levels = n + 1 := ⟨w.levels - 1, by omega⟩
  rw [levels] at last ⊢
  exact settled_iff.mpr last.symm

theorem equalWithin_of_levels (present : ∀ s, w.Reaches a s → s < w.objects.size)
    (enough : w.levels ≤ k) (b : Value) : w.equalWithin k a b = w.equal a b := by
  cases handle : a.handle? with
  | none =>
    have bare : w.Fathoms 0 a := .scalar handle
    exact bare.equalWithin_eq (Nat.zero_le _) (Nat.zero_le _) b
  | some r =>
    have some : 0 < w.levels := Nat.lt_of_le_of_lt (Nat.zero_le r) (present r (.start handle))
    exact (settled_levels some).equalWithin_eq enough a b

theorem Comparison.elsewhere {w' : World} {R : Value → Value → Prop} (step : w.Comparison R a b)
    (same : ∀ r, a.handle? = some r ∨ b.handle? = some r →
      w'.sequence r = w.sequence r ∧ w'.fields r = w.fields r ∧ w'.moment r = w.moment r) :
    w'.Comparison R a b := by
  cases step with
  | number eq => exact .number eq
  | @date r s eq =>
    exact .date ((same r (.inl rfl)).2.2.trans (eq.trans (same s (.inr rfl)).2.2.symm))
  | @seq r s each =>
    refine .seq ?_
    unfold items
    rw [(same r (.inl rfl)).1, (same s (.inr rfl)).1]
    exact each
  | @record r s each =>
    refine .record ?_
    rw [(same r (.inl rfl)).2.1, (same s (.inr rfl)).2.1]
    exact each
  | _ => constructor

theorem SameOn.equalWithin_eq {S : Ref → Prop} {w' : World} (same : SameOn S w w') (onA : a.On S)
    (onB : b.On S) (k : Nat) : w'.equalWithin k a b = w.equalWithin k a b := by
  rw [Bool.eq_iff_iff]
  induction k generalizing a b with
  | zero =>
    rw [equalWithin_zero, equalWithin_zero]
    refine or_congr_right (exists₂_congr fun r s => and_congr_right fun is => and_congr_right ?_)
    rintro rfl
    subst is
    rw [same.moment r (onA r rfl), same.moment s (onB s rfl)]
  | succ k ih =>
    have here (r : Ref) (handle : a.handle? = some r ∨ b.handle? = some r) : S r :=
      handle.elim (onA r) (onB r)
    have below (x : Value) (child : x ∈ w'.children a) (y : Value) (child' : y ∈ w'.children b) :
        w'.equalWithin k x y = true ↔ w.equalWithin k x y = true := by
      rw [same.children onA] at child
      rw [same.children onB] at child'
      exact ih (same.child_on onA child) (same.child_on onB child')
    rw [equalWithin_succ, equalWithin_succ]
    constructor
    · intro step
      refine Comparison.elsewhere (step.mono fun x child y child' => (below x child y child').mp) ?_
      intro r handle
      exact ⟨(same.sequence r (here r handle)).symm, (same.fields r (here r handle)).symm,
        (same.moment r (here r handle)).symm⟩
    · intro step
      refine (Comparison.elsewhere step fun r handle => ?_).mono fun x child y child' =>
        (below x child y child').mpr
      exact ⟨same.sequence r (here r handle), same.fields r (here r handle),
        same.moment r (here r handle)⟩

theorem Grows.equal {w' : World} (grows : w.Grows w')
    (present : ∀ s, w.Reaches a s → s < w.objects.size)
    (present' : ∀ s, w.Reaches b s → s < w.objects.size) : w'.equal a b = w.equal a b := by
  have same : SameOn (fun s => w.Reaches a s ∨ w.Reaches b s) w w' := by
    refine Region.Evolves.sameOn grows (fun r reaches item held s next => ?_) fun s reaches new => ?_
    · exact reaches.imp (·.step held next) (·.step held next)
    · exact absurd (reaches.elim (present s) (present' s)) (Nat.not_lt.mpr new)
  rw [World.equal, same.equalWithin_eq (fun _ handle => .inl (.start handle))
    fun _ handle => .inr (.start handle)]
  exact equalWithin_of_levels present grows.size b

end Accessors.World
