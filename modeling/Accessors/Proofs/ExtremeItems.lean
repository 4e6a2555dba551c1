import Accessors.Proofs.CollectionKeys
import Accessors.Proofs.DoubleOrder

/-! The extreme items of a collection. Items that are no numbers are passed over, and of the others
one replaces the best so far only if it is strictly better; so the best so far is at any time the
first of those that no other exceeds. Main statement: `max_min_pick_first_extreme`. -/

namespace Accessors

namespace World
variable {w : World} {items : List Value} {item best : Value} {i : Nat}
  {within : Float → Float → Prop} {better : Float → Float → Bool}

/-- A test is whether a number goes beyond another one in a total order of the numbers. -/
structure Exceeds (within : Float → Float → Prop) (better : Float → Float → Bool) : Prop where
  total : ∀ {x y : Float}, x.isNaN = false → y.isNaN = false → within x y ∨ within y x
  trans : ∀ {x y z : Float}, x.isNaN = false → y.isNaN = false → z.isNaN = false →
    within x y → within y z → within x z
  better_iff : ∀ {x y : Float}, x.isNaN = false → y.isNaN = false →
    (better x y = true ↔ ¬ within x y)

theorem Exceeds.flip (order : Exceeds within better) :
    Exceeds (fun x y => within y x) fun x y => better y x where
  total number number' := order.total number' number
  trans number number' number'' first second := order.trans number'' number' number second first
  better_iff number number' := order.better_iff number' number

theorem exceeds_greater : Exceeds (fun x y => x ≤ y) fun x y => y < x where
  total number number' := by
    rw [Number.le_iff_rank number number', Number.le_iff_rank number' number]
    exact le_total _ _
  trans number number' number'' first second := by
    rw [Number.le_iff_rank number number'] at first
    rw [Number.le_iff_rank number' number''] at second
    rw [Number.le_iff_rank number number'']
    exact first.trans second
  better_iff number number' := by
    rw [decide_eq_true_eq, Number.lt_iff_rank number' number, Number.le_iff_rank number number',
      not_le]

/-- The first of those items that are numbers and that all numbers among the items are within. -/
structure Picks (w : World) (within : Float → Float → Prop) (items : List Value) (i : Nat)
    (best : Value) : Prop where
  found : items[i]? = some best
  number : (w.toNumber best).isNaN = false
  extreme : ∀ item ∈ items, (w.toNumber item).isNaN = false →
    within (w.toNumber item) (w.toNumber best)
  first : ∀ j < i, ∀ earlier, items[j]? = some earlier → (w.toNumber earlier).isNaN = false →
    ¬ within (w.toNumber best) (w.toNumber earlier)

namespace Picks

theorem append (picks : w.Picks within items i best)
    (inside : (w.toNumber item).isNaN = false → within (w.toNumber item) (w.toNumber best)) :
    w.Picks within (items ++ [item]) i best := by
  have lt : i < items.length := (List.getElem?_eq_some_iff.mp picks.found).1
  refine ⟨(List.getElem?_append_left lt).trans picks.found, picks.number, ?_, ?_⟩
  · rw [List.forall_mem_append, List.forall_mem_singleton]
    exact ⟨picks.extreme, inside⟩
  · intro j before earlier found
    rw [List.getElem?_append_left (Nat.lt_trans before lt)] at found
    exact picks.first j before earlier found

theorem last (refl : within (w.toNumber item) (w.toNumber item))
    (number : (w.toNumber item).isNaN = false)
    (others : ∀ other ∈ items, (w.toNumber other).isNaN = false →
      within (w.toNumber other) (w.toNumber item) ∧
        ¬ within (w.toNumber item) (w.toNumber other)) :
    w.Picks within (items ++ [item]) items.length item := by
  refine ⟨List.getElem?_concat_length, number, ?_, ?_⟩
  · rw [List.forall_mem_append, List.forall_mem_singleton]
    exact ⟨fun other mem is => (others other mem is).1, fun _ => refl⟩
  · intro j before earlier found is
    rw [List.getElem?_append_left before] at found
    exact (others earlier (List.mem_of_getElem? found) is).2

end Picks

def Best (w : World) (within : Float → Float → Prop) (items : List Value) : Option Value → Prop
  | none => ∀ item ∈ items, (w.toNumber item).isNaN = true
  | some best => ∃ i, w.Picks within items i best

def pickOver (w : World) (better : Float → Float → Bool) (best : Option Value) (item : Value) :
    Option Value :=
  let n := w.toNumber item
  if n != n then best
  else
    match best with
    | none => some item
    | some current => if better n (w.toNumber current) then some item else best

theorem extreme_eq (w : World) (better : Float → Float → Bool) (items : List Value) :
    w.extreme better items = (items.foldl (w.pickOver better) none).getD .undefined :=
  rfl

theorem Best.step (order : Exceeds within better) {found : Option Value}
    (before : w.Best within items found) (item : Value) :
    w.Best within (items ++ [item]) (w.pickOver better found item) := by
  unfold pickOver
  dsimp only
  rw [Number.bne_self]
  split
  case isTrue nan =>
    cases found with
    | none => exact List.forall_mem_append.mpr ⟨before, List.forall_mem_singleton.mpr nan⟩
    | some best =>
      obtain ⟨i, picks⟩ := before
      exact ⟨i, picks.append fun number => absurd (nan.symm.trans number) (by decide)⟩
  case isFalse notNaN =>
    have number : (w.toNumber item).isNaN = false := Bool.eq_false_iff.mpr notNaN
    have refl := (order.total number number).elim id id
    cases found with
    | none =>
      refine ⟨_, .last refl number fun other mem is => ?_⟩
      exact absurd ((before other mem).symm.trans is) (by decide)
    | some best =>
      obtain ⟨i, picks⟩ := before
      dsimp only
      split
      case isTrue beyond =>
        have outside := (order.better_iff number picks.number).mp beyond
        have inside := (order.total number picks.number).resolve_left outside
        refine ⟨_, .last refl number fun other mem is => ⟨?_, fun reaches => ?_⟩⟩
        · exact order.trans is picks.number number (picks.extreme other mem is) inside
        · exact outside (order.trans number is picks.number reaches (picks.extreme other mem is))
      case isFalse none =>
        refine ⟨i, picks.append fun _ => ?_⟩
        exact not_not.mp (mt (order.better_iff number picks.number).mpr none)

theorem best_foldl (order : Exceeds within better) (items : List Value) :
    w.Best within items (items.foldl (w.pickOver better) none) := by
  induction items using List.reverseRecOn with
  | nil => exact List.forall_mem_nil _
  | append_singleton items item ih =>
    rw [List.foldl_append]
    exact ih.step order item

theorem extreme_picks (order : Exceeds within better) (items : List Value) :
    (w.extreme better items = .undefined ↔ ∀ item ∈ items, (w.toNumber item).isNaN = true) ∧
      (w.extreme better items ≠ .undefined →
        ∃ i, w.Picks within items i (w.extreme better items)) := by
  have best := best_foldl (w := w) order items
  rw [extreme_eq]
  cases found : items.foldl (w.pickOver better) none with
  | none =>
    rw [found] at best
    exact ⟨iff_of_true rfl best, absurd rfl⟩
  | some v =>
    rw [found] at best
    obtain ⟨i, picks⟩ := best
    have nan : (w.toNumber .undefined).isNaN = true := by
      unfold World.toNumber toNumberWithin
      decide +kernel
    have defined : v ≠ .undefined := by
      rintro rfl
      exact absurd (nan.symm.trans picks.number) (by decide)
    refine ⟨iff_of_false defined fun all => ?_, fun _ => ⟨i, picks⟩⟩
    exact absurd ((all v (List.mem_of_getElem? picks.found)).symm.trans picks.number) (by decide)

theorem yields_max (w : World) (c : Value) :
    w.Yields "max" [c] (w.extreme (fun n best => best < n) (w.collection c)) w :=
  ⟨_, rfl, rfl⟩

theorem yields_min (w : World) (c : Value) :
    w.Yields "min" [c] (w.extreme (fun n best => n < best) (w.collection c)) w :=
  ⟨_, rfl, rfl⟩

end World

open World in
/-- The greatest and the least item of a collection, or of a text or anything else, are undefined
just when no item is a number. Otherwise each is one of the items, as it is; its number is at
least, or at most, that of every item that is a number, and it is the first such item. -/
theorem max_min_pick_first_extreme (w : World) (c : Value) :
    (∃ greatest, w.Yields "max" [c] greatest w ∧
      (greatest = .undefined ↔ ∀ item ∈ w.collection c, (w.toNumber item).isNaN = true) ∧
      (greatest ≠ .undefined → ∃ i, w.Picks (fun x y => x ≤ y) (w.collection c) i greatest)) ∧
    ∃ least, w.Yields "min" [c] least w ∧
      (least = .undefined ↔ ∀ item ∈ w.collection c, (w.toNumber item).isNaN = true) ∧
      (least ≠ .undefined → ∃ i, w.Picks (fun x y => y ≤ x) (w.collection c) i least) := by
  obtain ⟨none, picked⟩ := extreme_picks (w := w) exceeds_greater (w.collection c)
  obtain ⟨none', picked'⟩ := extreme_picks (w := w) exceeds_greater.flip (w.collection c)
  exact ⟨⟨_, w.yields_max c, none, picked⟩, ⟨_, w.yields_min c, none', picked'⟩⟩

open World in
/-- Of a text and a number that are both two, the text comes first and is picked. The least digit
of a text and the greatest field of a record are picked likewise. -/
theorem greatest_of_mixed_kinds :
    let w := { World.initial with
      objects := #[.seq #[.undefined, .number 1, .str "2", .bool true, .number 2],
        .record (.ofList [("low", .str "1"), ("none", .undefined), ("high", .str "3")])] }
    (∃ greatest i, w.Yields "max" [.seq 0] greatest w ∧ greatest.text? = some "2" ∧
      w.Picks (fun x y => x ≤ y) (w.collection (.seq 0)) i greatest) ∧
    (∃ greatest i, w.Yields "max" [.record 1] greatest w ∧ greatest.text? = some "3" ∧
      w.Picks (fun x y => x ≤ y) (w.collection (.record 1)) i greatest) ∧
    ∃ least i, w.Yields "min" [.str "c3d2"] least w ∧ least.text? = some "2" ∧
      w.Picks (fun x y => y ≤ x) (w.collection (.str "c3d2")) i least := by
  intro w
  refine ⟨?_, ?_, ?_⟩
  · obtain ⟨greatest, yields, _, picked⟩ := (max_min_pick_first_extreme w (.seq 0)).1
    have text : greatest.text? = some "2" := by
      rw [(yields.unique (w.yields_max _)).1]
      decide +kernel
    obtain ⟨i, picks⟩ := picked (by rintro rfl; cases text)
    exact ⟨greatest, i, yields, text, picks⟩
  · obtain ⟨greatest, yields, _, picked⟩ := (max_min_pick_first_extreme w (.record 1)).1
    have text : greatest.text? = some "3" := by
      rw [(yields.unique (w.yields_max _)).1]
      decide +kernel
    obtain ⟨i, picks⟩ := picked (by rintro rfl; cases text)
    exact ⟨greatest, i, yields, text, picks⟩
  · obtain ⟨least, yields, _, picked⟩ := (max_min_pick_first_extreme w (.str "c3d2")).2
    have text : least.text? = some "2" := by
      rw [(yields.unique (w.yields_min _)).1]
      decide +kernel
    obtain ⟨i, picks⟩ := picked (by rintro rfl; cases text)
    exact ⟨least, i, yields, text, picks⟩

end Accessors
