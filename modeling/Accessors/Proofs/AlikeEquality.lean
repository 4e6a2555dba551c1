import Accessors.Proofs.JsonConversion
import Accessors.Proofs.Paths

/-! Equality of values that look alike and share nothing. Where two values share a collection,
equality does not look into it; where they share none it compares all scalars, and only what is
not a number differs from itself. Main statement: two values of the same shape without a common
collection are equal exactly when nothing in them is not a number (`SameShape.equal_iff`). -/

namespace Accessors

theorem isEqv_iff_forall₂ {α : Type} {eqv : α → α → Bool} {xs ys : List α} :
    xs.isEqv ys eqv = true ↔ List.Forall₂ (fun x y => eqv x y = true) xs ys := by
  refine ⟨fun h => ?_, isEqv_of_forall₂⟩
  induction xs generalizing ys with
  | nil =>
    cases ys with
    | nil => exact .nil
    | cons y ys => cases h
  | cons x xs ih =>
    cases ys with
    | nil => cases h
    | cons y ys =>
      rw [List.isEqv_cons_cons, Bool.and_eq_true] at h
      exact .cons h.1 (ih h.2)

theorem forall₂_iff_forall {α β : Type} {P : α → β → Prop} {Q : β → Prop} {xs : List α}
    {ys : List β} (each : List.Forall₂ (fun x y => P x y ↔ Q y) xs ys) :
    List.Forall₂ P xs ys ↔ ∀ y ∈ ys, Q y := by
  induction each with
  | nil => simp
  | cons here _ ih => rw [List.forall₂_cons, here, ih, List.forall_mem_cons]

theorem Table.all_get?_iff {α : Type} {t t' : Table α} {f : α → α → Bool}
    (keys : t'.keys = t.keys) :
    (t.entries.all fun entry => (t'.get? entry.1).any (f entry.2)) = true ↔
      List.Forall₂ (fun a b => f a b = true) t.values t'.values := by
  have lookup (xs ys : List (String × α)) (names : ys.map Prod.fst = xs.map Prod.fst)
      (there : ∀ entry ∈ ys, t'.get? entry.1 = some entry.2) :
      (xs.all fun entry => (t'.get? entry.1).any (f entry.2)) = true ↔
        List.Forall₂ (fun a b => f a b = true) (xs.map Prod.snd) (ys.map Prod.snd) := by
    induction xs generalizing ys with
    | nil =>
      rw [List.map_nil, List.map_eq_nil_iff] at names
      simp [names]
    | cons x xs ih =>
      cases ys with
      | nil => cases names
      | cons y ys =>
        rw [List.map_cons, List.map_cons] at names
        obtain ⟨name, names⟩ := List.cons.inj names
        obtain ⟨here, later⟩ := List.forall_mem_cons.mp there
        rw [List.all_cons, Bool.and_eq_true, ih ys names later, List.map_cons, List.map_cons,
          List.forall₂_cons, ← name, here]
        rfl
  exact lookup t.entries t'.entries keys fun entry mem => t'.get?_of_mem mem

namespace World

def Disjoint (w : World) (a b : Value) : Prop :=
  ∀ path s, w.handleAt? a path = some s → w.handleAt? b path ≠ some s

theorem Disjoint.children {w : World} {a b : Value} (disjoint : w.Disjoint a b) {i : Nat}
    {x y : Value} (left : (w.children a)[i]? = some x) (right : (w.children b)[i]? = some y) :
    w.Disjoint x y := by
  intro path s led led'
  refine disjoint (i :: path) s ?_ ?_
  · rw [handleAt?_cons, handleAmong?_cons, left]
    exact led
  · rw [handleAt?_cons, handleAmong?_cons, right]
    exact led'

theorem NaNFree.of_bare {w : World} {v : Value} (none : w.children v = [])
    (other : ∀ x, v ≠ .number x) : w.NaNFree v := by
  refine nanFree_iff.mpr ⟨fun x eq => absurd eq (other x), fun item mem => ?_⟩
  rw [none] at mem
  cases mem

theorem nanFree_iff_children {w : World} {v : Value} {r : Ref} (plain : v.plainHandle? = some r) :
    w.NaNFree v ↔ ∀ item ∈ w.children v, w.NaNFree item := by
  rw [nanFree_iff]
  refine and_iff_right fun x eq => ?_
  rw [eq] at plain
  cases plain

namespace SameShape
variable {w : World} {a b : Value}

theorem equal_iff_of_not_plain (same : SameShape w w b a) (bare : b.plainHandle? = none) (k : Nat) :
    w.equalWithin k a b = true ↔ w.NaNFree b := by
  obtain rfl := same.eq_of_not_plain bare
  cases a with
  | number x =>
    have itself : (x == x) = true ↔ w.NaNFree (.number x) := by
      rw [Number.beq_self_iff, nanFree_iff]
      simp [World.children]
    cases k <;> exact itself
  | seq r | record r | date r => cases bare
  | _ =>
    refine iff_of_true ?_ (.of_bare rfl (by simp))
    cases k <;> simp [equalWithin]

theorem equal_iff_date {r : Ref} (same : SameShape w w b (.date r)) (k : Nat) :
    w.equalWithin k (.date r) b = true ↔ w.NaNFree b := by
  have shape := same 0
  cases b with
  | date s =>
    have moment : w.moment r = w.moment s := Shape.date.inj shape
    refine iff_of_true ?_ (.of_bare rfl (by simp))
    cases k <;> exact decide_eq_true moment
  | _ => cases shape

theorem equal_iff_seq {r s : Ref} (same : SameShape w w (.seq s) (.seq r)) (other : r ≠ s)
    (k : Nat) : w.equalWithin (k + 1) (.seq r) (.seq s) = true ↔
      List.Forall₂ (fun x y => w.equalWithin k x y = true) (w.items r) (w.items s) := by
  have size : (w.sequence r).size = (w.sequence s).size := same.of_seq.length_eq.symm
  rw [← isEqv_iff_forall₂]
  simp [equalWithin, other, size]

theorem equal_iff_record {r s : Ref} (same : SameShape w w (.record s) (.record r)) (other : r ≠ s)
    (k : Nat) : w.equalWithin (k + 1) (.record r) (.record s) = true ↔
      List.Forall₂ (fun x y => w.equalWithin k x y = true) (w.fields r).values
        (w.fields s).values := by
  obtain ⟨keys, values⟩ := same.of_record
  have size : (w.fields r).size = (w.fields s).size := by
    have length := congrArg List.length keys
    unfold Table.keys Table.entries at length
    simpa [Table.size] using length
  rw [← Table.all_get?_iff keys.symm]
  simp [equalWithin, other, size]

/-- Values of the same shape that share no collection are equal unless something in them is not a
number. -/
theorem equal_iff {n k : Nat} (finite : w.Fathoms n a) (same : SameShape w w b a)
    (disjoint : w.Disjoint a b) (enough : n ≤ k) :
    w.equalWithin k a b = true ↔ w.NaNFree b := by
  induction finite generalizing b k with
  | @scalar n a bare =>
    have plain : a.plainHandle? = none := by
      cases a <;> first | rfl | cases bare
    obtain rfl := same.symm.eq_of_not_plain plain
    exact same.equal_iff_of_not_plain plain k
  | @object n a r handle lt inner ih =>
    obtain ⟨k, rfl⟩ : ∃ j, k = j + 1 := ⟨k - 1, by omega⟩
    have held : List.Forall₂ (fun x y => w.equalWithin k x y = true ↔ w.NaNFree y)
        (w.children a) (w.children b) := by
      obtain ⟨lengths, each⟩ := List.forall₂_iff_get.mp same.children
      refine List.forall₂_iff_get.mpr ⟨lengths.symm, fun i lt lt' => ?_⟩
      have left := List.getElem?_eq_getElem lt
      have right := List.getElem?_eq_getElem lt'
      obtain ⟨s, handle', mem⟩ := exists_handle_of_child (List.mem_of_getElem? left)
      cases handle.symm.trans handle'
      exact ih _ mem (each i lt' lt) (disjoint.children left right) (by omega)
    have below := forall₂_iff_forall held
    cases a with
    | seq r =>
      obtain ⟨s, rfl⟩ := same.symm.exists_seq
      have other : r ≠ s := fun eq => disjoint [] r rfl (congrArg some eq.symm)
      rw [same.equal_iff_seq other, nanFree_iff_children rfl]
      exact below
    | record r =>
      obtain ⟨s, rfl⟩ := same.symm.exists_record
      have other : r ≠ s := fun eq => disjoint [] r rfl (congrArg some eq.symm)
      rw [same.equal_iff_record other, nanFree_iff_children rfl]
      exact below
    | date r => exact same.equal_iff_date _
    | entity r =>
      obtain rfl := same.symm.eq_of_not_plain rfl
      exact same.equal_iff_of_not_plain rfl _
    | _ => cases handle

end SameShape

end World

end Accessors
