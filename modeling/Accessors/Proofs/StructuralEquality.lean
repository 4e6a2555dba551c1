import Accessors.Proofs.AlikeEquality
import Mathlib.Data.List.Perm.Subperm

/-! Structural equality as a relation. One step of a comparison looks at two values from outside
and leaves what they hold to a relation for the level below; equality of values that do not contain
themselves is what satisfies its own step (`equal_iff`). So it is symmetric and transitive because
the step is, and only a number that is not a number differs from itself: the same handle is equal
to itself before anything in it is looked at. -/

namespace Accessors

namespace Table
variable {α : Type} {t u : Table α}

/-- Two tables with the same keys, in whatever order, and related values at each of them. -/
structure Matches (R : α → α → Prop) (t u : Table α) : Prop where
  keys : ∀ key, key ∈ t.keys ↔ key ∈ u.keys
  values : ∀ key a b, t.get? key = some a → u.get? key = some b → R a b

theorem mem_keys_iff {key : String} : key ∈ t.keys ↔ ∃ a, t.get? key = some a := by
  constructor
  · intro mem
    obtain ⟨entry, there, rfl⟩ := List.mem_map.mp mem
    exact ⟨entry.2, t.get?_of_mem there⟩
  · rintro ⟨a, found⟩
    rw [get?_eq] at found
    obtain ⟨before, after, split, _⟩ := List.lookup_eq_some_iff.mp found
    simp [keys, split]

theorem length_keys (t : Table α) : t.keys.length = t.size := by
  simp [keys, entries, size]

/-- Looking up one table's entries in another of the same size compares the two both ways, because
no key occurs twice. -/
theorem lookups_iff {f : α → α → Bool} :
    ((t.size == u.size) && t.entries.all fun entry => (u.get? entry.1).any (f entry.2)) = true ↔
      t.Matches (fun a b => f a b = true) u := by
  simp only [Bool.and_eq_true, beq_iff_eq, List.all_eq_true, Option.any_eq_true]
  constructor
  · rintro ⟨size, each⟩
    have found {key : String} {a : α} (there : t.get? key = some a) :
        ∃ b, u.get? key = some b ∧ f a b = true := by
      rw [get?_eq] at there
      obtain ⟨before, after, split, _⟩ := List.lookup_eq_some_iff.mp there
      exact each (key, a) (by simp [split])
    have subset : t.keys ⊆ u.keys := fun key mem => by
      obtain ⟨a, there⟩ := mem_keys_iff.mp mem
      obtain ⟨b, here, _⟩ := found there
      exact mem_keys_iff.mpr ⟨b, here⟩
    have same : t.keys.Perm u.keys := (t.keys_nodup.subperm subset).perm_of_length_le
      (Nat.le_of_eq (by rw [length_keys, length_keys, size]))
    refine ⟨fun key => same.mem_iff, fun key a b there here => ?_⟩
    obtain ⟨b', here', related⟩ := found there
    rw [here] at here'
    cases here'
    exact related
  · rintro ⟨keys, values⟩
    have same : t.keys.Perm u.keys :=
      (List.perm_ext_iff_of_nodup t.keys_nodup u.keys_nodup).mpr keys
    refine ⟨?_, fun entry mem => ?_⟩
    · rw [← length_keys, ← length_keys, same.length_eq]
    · have there := t.get?_of_mem mem
      obtain ⟨b, here⟩ := mem_keys_iff.mp ((keys entry.1).mp (mem_keys_iff.mpr ⟨_, there⟩))
      exact ⟨b, here, values entry.1 entry.2 b there here⟩

end Table

namespace Value
variable {a b c : Value}

theorem same_iff : a.same b = true ↔
    (∃ x y, a = .number x ∧ b = .number y ∧ (x == y) = true) ∨ a = b ∧ ∀ x, a ≠ .number x := by
  unfold same
  split
  case h_10 =>
    refine iff_of_false Bool.false_ne_true ?_
    rintro (⟨x, y, rfl, rfl, _⟩ | ⟨rfl, _⟩)
    · simp_all
    · cases a <;> simp_all
  all_goals simp

theorem same_symm (same : a.same b = true) : b.same a = true := by
  rw [same_iff] at same ⊢
  rcases same with ⟨x, y, rfl, rfl, eq⟩ | ⟨rfl, other⟩
  · exact .inl ⟨y, x, rfl, rfl, Number.beq_symm eq⟩
  · exact .inr ⟨rfl, other⟩

theorem same_trans (first : a.same b = true) (second : b.same c = true) : a.same c = true := by
  rw [same_iff] at first
  rcases first with ⟨x, y, rfl, rfl, eq⟩ | ⟨rfl, _⟩
  · rw [same_iff] at second ⊢
    rcases second with ⟨_, z, ⟨⟩, rfl, eq'⟩ | ⟨_, other⟩
    · exact .inl ⟨x, z, rfl, rfl, Number.beq_trans eq eq'⟩
    · exact absurd rfl (other y)
  · exact second

end Value

namespace World
variable {w : World} {R S : Value → Value → Prop} {a b c : Value}

/-- One step of a comparison. Scalars and dates are told by their content and entities by their
handle; a collection compares with itself, and with another one if what the two hold compares by
the relation given. -/
inductive Comparison (w : World) (R : Value → Value → Prop) : Value → Value → Prop
  | undefined : Comparison w R .undefined .undefined
  | null : Comparison w R .null .null
  | bool (b : Bool) : Comparison w R (.bool b) (.bool b)
  | number {x y : Float} (eq : (x == y) = true) : Comparison w R (.number x) (.number y)
  | str (s : String) : Comparison w R (.str s) (.str s)
  | date {r s : Ref} (eq : w.moment r = w.moment s) : Comparison w R (.date r) (.date s)
  | entity (r : Ref) : Comparison w R (.entity r) (.entity r)
  | sameSeq (r : Ref) : Comparison w R (.seq r) (.seq r)
  | sameRecord (r : Ref) : Comparison w R (.record r) (.record r)
  | seq {r s : Ref} (items : List.Forall₂ R (w.items r) (w.items s)) :
      Comparison w R (.seq r) (.seq s)
  | record {r s : Ref} (fields : (w.fields r).Matches R (w.fields s)) :
      Comparison w R (.record r) (.record s)

theorem equalWithin_succ (k : Nat) :
    w.equalWithin (k + 1) a b = true ↔ w.Comparison (fun x y => w.equalWithin k x y = true) a b := by
  generalize below : (fun x y => w.equalWithin k x y = true) = R
  unfold equalWithin
  split
  · exact iff_of_true rfl .undefined
  · exact iff_of_true rfl .null
  · rw [beq_iff_eq]
    constructor
    · rintro rfl
      exact .bool _
    · rintro ⟨⟩
      rfl
  · constructor
    · exact .number
    · intro step
      cases step with
      | number eq => exact eq
  · rw [beq_iff_eq]
    constructor
    · rintro rfl
      exact .str _
    · rintro ⟨⟩
      rfl
  · rw [decide_eq_true_eq]
    constructor
    · exact .date
    · intro step
      cases step with
      | date eq => exact eq
  · rw [beq_iff_eq]
    constructor
    · rintro rfl
      exact .entity _
    · rintro ⟨⟩
      rfl
  · rename_i r s
    have items : ((w.sequence r).size == (w.sequence s).size &&
        (w.items r).isEqv (w.items s) (w.equalWithin k)) = true ↔
        List.Forall₂ R (w.items r) (w.items s) := by
      rw [Bool.and_eq_true, isEqv_iff_forall₂, beq_iff_eq, below]
      exact and_iff_right_of_imp List.Forall₂.length_eq
    rw [Bool.or_eq_true, beq_iff_eq, items]
    constructor
    · rintro (rfl | each)
      · exact .sameSeq _
      · exact .seq each
    · intro step
      cases step with
      | sameSeq => exact .inl rfl
      | seq each => exact .inr each
  · rw [Bool.or_eq_true, beq_iff_eq, Table.lookups_iff, below]
    constructor
    · rintro (rfl | fields)
      · exact .sameRecord _
      · exact .record fields
    · intro step
      cases step with
      | sameRecord => exact .inl rfl
      | record fields => exact .inr fields
  · refine iff_of_false Bool.false_ne_true fun step => ?_
    cases step <;> simp_all

namespace Comparison

theorem mono (step : w.Comparison R a b)
    (below : ∀ x ∈ w.children a, ∀ y ∈ w.children b, R x y → S x y) : w.Comparison S a b := by
  cases step with
  | @seq r s items =>
    obtain ⟨lengths, each⟩ := List.forall₂_iff_get.mp items
    refine .seq (List.forall₂_iff_get.mpr ⟨lengths, fun i lt lt' => ?_⟩)
    exact below _ (List.get_mem _ _) _ (List.get_mem _ _) (each i lt lt')
  | @record r s fields =>
    refine .record ⟨fields.keys, fun key x y there here => ?_⟩
    exact below _ (Table.mem_values_of_get? there) _ (Table.mem_values_of_get? here)
      (fields.values key x y there here)
  | number eq => exact .number eq
  | date eq => exact .date eq
  | _ => constructor

theorem symm (step : w.Comparison R a b)
    (below : ∀ x ∈ w.children a, ∀ y ∈ w.children b, R x y → S y x) : w.Comparison S b a := by
  cases step with
  | @seq r s items =>
    obtain ⟨lengths, each⟩ := List.forall₂_iff_get.mp items
    refine .seq (List.forall₂_iff_get.mpr ⟨lengths.symm, fun i lt lt' => ?_⟩)
    exact below _ (List.get_mem _ _) _ (List.get_mem _ _) (each i lt' lt)
  | @record r s fields =>
    refine .record ⟨fun key => (fields.keys key).symm, fun key y x here there => ?_⟩
    exact below _ (Table.mem_values_of_get? there) _ (Table.mem_values_of_get? here)
      (fields.values key x y there here)
  | number eq => exact .number (Number.beq_symm eq)
  | date eq => exact .date eq.symm
  | _ => constructor

theorem trans (first : w.Comparison R a b) (second : w.Comparison R b c)
    (below : ∀ x ∈ w.children a, ∀ y ∈ w.children b, ∀ z, R x y → R y z → R x z) :
    w.Comparison R a c := by
  cases first with
  | number eq =>
    cases second with
    | number eq' => exact .number (Number.beq_trans eq eq')
  | date eq =>
    cases second with
    | date eq' => exact .date (eq.trans eq')
  | @seq r s items =>
    cases second with
    | sameSeq _ => exact .seq items
    | seq items' =>
      obtain ⟨lengths, each⟩ := List.forall₂_iff_get.mp items
      obtain ⟨lengths', each'⟩ := List.forall₂_iff_get.mp items'
      refine .seq (List.forall₂_iff_get.mpr ⟨lengths.trans lengths', fun i lt lt' => ?_⟩)
      exact below _ (List.get_mem _ _) _ (List.get_mem _ _) _ (each i lt (lengths ▸ lt))
        (each' i (lengths ▸ lt) lt')
  | @record r s fields =>
    cases second with
    | sameRecord _ => exact .record fields
    | record fields' =>
      refine .record ⟨fun key => (fields.keys key).trans (fields'.keys key),
        fun key x z there last => ?_⟩
      obtain ⟨y, here⟩ := Table.mem_keys_iff.mp
        ((fields.keys key).mp (Table.mem_keys_iff.mpr ⟨x, there⟩))
      exact below _ (Table.mem_values_of_get? there) _ (Table.mem_values_of_get? here) _
        (fields.values key x y there here) (fields'.values key y z here last)
  | _ => exact second

end Comparison

theorem Fathoms.equalWithin_eq {n : Nat} (h : w.Fathoms n a) {k k' : Nat} (enough : n ≤ k)
    (enough' : n ≤ k') (b : Value) : w.equalWithin k a b = w.equalWithin k' a b := by
  induction h generalizing k k' b with
  | @scalar n a bare =>
    unfold equalWithin
    cases a with
    | seq r | record r | date r | entity r => cases bare
    | _ => cases b <;> rfl
  | @object n a r handle lt inner ih =>
    have below {j j' : Nat} (le : n ≤ j) (le' : n ≤ j')
        (step : w.Comparison (fun x y => w.equalWithin j x y = true) a b) :
        w.Comparison (fun x y => w.equalWithin j' x y = true) a b := by
      refine step.mono fun x child y _ eq => ?_
      obtain ⟨s, other, held⟩ := exists_handle_of_child child
      obtain rfl : r = s := Option.some.inj (handle.symm.trans other)
      rw [← eq]
      exact ih x held le' le y
    obtain ⟨j, rfl⟩ : ∃ j, k = j + 1 := ⟨k - 1, by omega⟩
    obtain ⟨j', rfl⟩ : ∃ j', k' = j' + 1 := ⟨k' - 1, by omega⟩
    rw [Bool.eq_iff_iff, equalWithin_succ, equalWithin_succ]
    exact ⟨below (by omega) (by omega), below (by omega) (by omega)⟩

namespace Finite

theorem equal_iff (finite : w.Finite a) :
    w.equal a b = true ↔ w.Comparison (fun x y => w.equal x y = true) a b := by
  obtain ⟨n, fathomed⟩ := finite
  have deeper := fathomed.levels.equalWithin_eq (Nat.le_refl _) (Nat.le_succ _) b
  unfold equal
  rw [deeper, equalWithin_succ]

theorem child (finite : w.Finite a) {x : Value} (mem : x ∈ w.children a) : w.Finite x := by
  obtain ⟨n, fathomed⟩ := finite
  obtain ⟨k, _, inner⟩ := fathomed.along (contains_of_child mem)
  exact ⟨k, inner⟩

@[elab_as_elim]
theorem induct {motive : (a : Value) → w.Finite a → Prop} (finite : w.Finite a)
    (step : ∀ a (finite : w.Finite a),
      (∀ x (mem : x ∈ w.children a), motive x (finite.child mem)) → motive a finite) :
    motive a finite := by
  obtain ⟨n, fathomed⟩ := finite
  induction fathomed with
  | @scalar n a bare =>
    refine step a ⟨n, .scalar bare⟩ fun x mem => ?_
    obtain ⟨r, handle, _⟩ := exists_handle_of_child mem
    rw [bare] at handle
    cases handle
  | @object n a r handle lt inner ih =>
    refine step a ⟨_, .object handle lt inner⟩ fun x mem => ?_
    obtain ⟨s, other, held⟩ := exists_handle_of_child mem
    cases handle.symm.trans other
    exact ih x held

theorem equal_symm (finite : w.Finite a) (finite' : w.Finite b) (eq : w.equal a b = true) :
    w.equal b a = true := by
  induction finite using induct generalizing b with
  | step a finite below =>
    refine finite'.equal_iff.mpr ((finite.equal_iff.mp eq).symm fun x child y child' => ?_)
    exact below x child (finite'.child child')

theorem equal_trans (finite : w.Finite a) (finite' : w.Finite b) (eq : w.equal a b = true)
    (eq' : w.equal b c = true) : w.equal a c = true := by
  induction finite using induct generalizing b c with
  | step a finite below =>
    refine finite.equal_iff.mpr ((finite.equal_iff.mp eq).trans (finite'.equal_iff.mp eq') ?_)
    intro x child y child' z
    exact below x child (finite'.child child')

theorem equal_self_iff (finite : w.Finite a) :
    w.equal a a = true ↔ ∀ x, a = .number x → x.isNaN = false := by
  rw [finite.equal_iff]
  cases a with
  | number x =>
    have itself : w.Comparison (fun x y => w.equal x y = true) (.number x) (.number x) ↔
        x.isNaN = false := by
      rw [← Number.beq_self_iff]
      constructor
      · intro step
        cases step with
        | number eq => exact eq
      · exact .number
    simpa using itself
  | date r => exact iff_of_true (.date rfl) (by simp)
  | _ => exact iff_of_true (by constructor) (by simp)

theorem equal_of_same (finite : w.Finite a) (same : a.same b = true) : w.equal a b = true := by
  rcases Value.same_iff.mp same with ⟨x, y, rfl, rfl, eq⟩ | ⟨rfl, other⟩
  · exact finite.equal_iff.mpr (.number eq)
  · exact finite.equal_self_iff.mpr fun x eq => absurd eq (other x)

theorem equal_record_iff {r s : Ref} (finite : w.Finite (.record r)) :
    w.equal (.record r) (.record s) = true ↔
      r = s ∨ (w.fields r).Matches (fun x y => w.equal x y = true) (w.fields s) := by
  rw [finite.equal_iff]
  constructor
  · intro step
    cases step with
    | sameRecord => exact .inl rfl
    | record fields => exact .inr fields
  · rintro (rfl | fields)
    · exact .sameRecord r
    · exact .record fields

end Finite

end World

/-- Structural equality of values that do not contain themselves is symmetric and transitive, and
only a number that is not a number differs from itself. Identity is symmetric and transitive as
well and implies equality. Two records are equal just when they are the same one or have the same
keys, in any order, with equal values. -/
theorem equality_partial_equivalence {w : World} {a b c : Value} (finite : w.Finite a)
    (finite' : w.Finite b) :
    (w.equal a b = true → w.equal b a = true) ∧
    (w.equal a b = true → w.equal b c = true → w.equal a c = true) ∧
    (w.equal a a = true ↔ ∀ x, a = .number x → x.isNaN = false) ∧
    (a.same b = true → w.equal a b = true) ∧
    (a.same b = true → b.same a = true) ∧
    (a.same b = true → b.same c = true → a.same c = true) ∧
    ∀ r s, a = .record r → b = .record s → (w.equal a b = true ↔
      r = s ∨ (w.fields r).Matches (fun x y => w.equal x y = true) (w.fields s)) := by
  refine ⟨finite.equal_symm finite', finite.equal_trans finite', finite.equal_self_iff,
    finite.equal_of_same, Value.same_symm, Value.same_trans, ?_⟩
  rintro r s rfl rfl
  exact finite.equal_record_iff

/-- Two records with their keys in different order share a sequence of what is not a number: they
are equal, and so is the sequence to itself. -/
theorem records_equal_in_any_order :
    let w := { World.initial with
      objects := #[.seq #[.number Number.nan], .record (.ofList [("x", .seq 0), ("y", .null)]),
        .record (.ofList [("y", .null), ("x", .seq 0)])] }
    w.Finite (.record 1) ∧ w.Finite (.record 2) ∧ w.equal (.record 1) (.record 2) = true ∧
      w.equal (.record 2) (.record 1) = true ∧ w.equal (.seq 0) (.seq 0) = true ∧
      w.equal (.number Number.nan) (.number Number.nan) = false := by
  intro w
  have sequence : w.Fathoms 1 (.seq 0) := .object rfl (by decide) fun u mem => by
    rw [List.mem_singleton.mp mem]
    exact .scalar rfl
  have first : w.Finite (.record 1) := ⟨2, .object rfl (by decide) fun u mem => by
    rcases List.mem_pair.mp mem with rfl | rfl
    · exact sequence
    · exact .scalar rfl⟩
  have second : w.Finite (.record 2) := ⟨2, .object rfl (by decide) fun u mem => by
    rcases List.mem_pair.mp mem with rfl | rfl
    · exact .scalar rfl
    · exact sequence⟩
  have equal : w.equal (.record 1) (.record 2) = true := by decide +kernel
  have itself := equality_partial_equivalence (c := .null) (w := w) ⟨1, sequence⟩ first
  refine ⟨first, second, equal, (equality_partial_equivalence (c := .null) first second).1 equal,
    itself.2.2.1.mpr (by simp), by decide +kernel⟩

end Accessors
