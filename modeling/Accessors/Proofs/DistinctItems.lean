import Accessors.Proofs.CollectionKeys
import Accessors.Proofs.EqualityLevels

/-! The distinct items of a collection. Each item is compared only with those kept before it; as
equality is transitive, it equals one of them just when it equals any earlier item at all. What is
not a number equals nothing and is always kept. Main statement: `uniq_keeps_first_items`. -/

namespace Accessors

theorem getElem?_append_last {α : Type} {xs : List α} {last x : α} {i : Nat}
    (found : (xs ++ [last])[i]? = some x) :
    i < xs.length ∧ xs[i]? = some x ∨ i = xs.length ∧ x = last := by
  rcases Nat.lt_trichotomy i xs.length with lt | rfl | gt
  · rw [List.getElem?_append_left lt] at found
    exact .inl ⟨lt, found⟩
  · rw [List.getElem?_concat_length] at found
    exact .inr ⟨rfl, (Option.some.inj found).symm⟩
  · rw [List.getElem?_eq_none (by rwa [List.length_append, List.length_singleton])] at found
    cases found

namespace World
variable {w : World} {items kept : List Value} {places : List Nat} {item : Value}

def Repeats (w : World) (items : List Value) (i : Nat) (item : Value) : Prop :=
  ∃ j < i, ∃ earlier, items[j]? = some earlier ∧ w.equal earlier item = true

/-- What some items are reduced to when none stays that equals an earlier one: those at certain
places, in order. -/
structure KeepsFirsts (w : World) (items kept : List Value) (places : List Nat) : Prop where
  ordered : places.Pairwise (· < ·)
  taken : places.map (items[·]?) = kept.map some
  left_out : ∀ i item, items[i]? = some item → (i ∉ places ↔ w.Repeats items i item)
  sublist : kept.Sublist items
  apart : kept.Pairwise fun a b => w.equal a b = false ∧ w.equal b a = false

theorem repeats_append {i : Nat} (le : i ≤ items.length) (last : Value) :
    w.Repeats (items ++ [last]) i item ↔ w.Repeats items i item :=
  exists_congr fun j => and_congr_right fun lt => by
    rw [List.getElem?_append_left (Nat.lt_of_lt_of_le lt le)]

namespace KeepsFirsts

theorem lt_length (keeps : w.KeepsFirsts items kept places) {i : Nat} (mem : i ∈ places) :
    i < items.length := by
  have there : items[i]? ∈ kept.map some := keeps.taken ▸ List.mem_map_of_mem mem
  obtain ⟨item, _, found⟩ := List.mem_map.mp there
  exact (List.getElem?_eq_some_iff.mp found.symm).1

theorem mem_kept (keeps : w.KeepsFirsts items kept places) {i : Nat} (mem : i ∈ places)
    (found : items[i]? = some item) : item ∈ kept := by
  have there : some item ∈ kept.map some :=
    keeps.taken ▸ List.mem_map.mpr ⟨i, mem, found⟩
  simpa using there

/-- What equals an item equals one that is kept: if the item itself is not, an earlier one that it
equals is or equals another. -/
theorem exists_kept (keeps : w.KeepsFirsts items kept places) {i : Nat} {earlier : Value}
    (found : items[i]? = some earlier) (eq : w.equal earlier item = true) :
    ∃ first ∈ kept, w.equal first item = true := by
  induction i using Nat.strongRecOn generalizing earlier with
  | ind i ih =>
    by_cases mem : i ∈ places
    · exact ⟨earlier, keeps.mem_kept mem found, eq⟩
    · obtain ⟨j, lt, before, there, same⟩ := (keeps.left_out i earlier found).mp mem
      exact ih j lt there (equal_trans same eq)

theorem any_kept (keeps : w.KeepsFirsts items kept places) (item : Value) :
    kept.any (w.equal · item) = true ↔ w.Repeats items items.length item := by
  rw [List.any_eq_true]
  constructor
  · rintro ⟨first, mem, eq⟩
    obtain ⟨j, found⟩ := List.mem_iff_getElem?.mp (keeps.sublist.subset mem)
    exact ⟨j, (List.getElem?_eq_some_iff.mp found).1, first, found, eq⟩
  · rintro ⟨j, _, earlier, found, eq⟩
    exact keeps.exists_kept found eq

theorem taken_append (keeps : w.KeepsFirsts items kept places) (last : Value) :
    places.map ((items ++ [last])[·]?) = kept.map some := by
  rw [← keeps.taken]
  exact List.map_congr_left fun i mem => List.getElem?_append_left (keeps.lt_length mem)

theorem step_repeated (keeps : w.KeepsFirsts items kept places)
    (repeated : w.Repeats items items.length item) :
    w.KeepsFirsts (items ++ [item]) kept places where
  ordered := keeps.ordered
  taken := keeps.taken_append item
  sublist := keeps.sublist.trans (List.sublist_append_left items [item])
  apart := keeps.apart
  left_out i last found := by
    rcases getElem?_append_last found with ⟨lt, found⟩ | ⟨rfl, rfl⟩
    · rw [repeats_append (Nat.le_of_lt lt), keeps.left_out i last found]
    · rw [repeats_append (Nat.le_refl _)]
      exact iff_of_true (fun mem => Nat.lt_irrefl _ (keeps.lt_length mem)) repeated

theorem step_new (keeps : w.KeepsFirsts items kept places)
    (new : ¬ w.Repeats items items.length item) :
    w.KeepsFirsts (items ++ [item]) (kept ++ [item]) (places ++ [items.length]) where
  ordered := List.pairwise_append.mpr ⟨keeps.ordered, List.pairwise_singleton _ _,
    fun i mem j last => List.mem_singleton.mp last ▸ keeps.lt_length mem⟩
  taken := by
    rw [List.map_append, keeps.taken_append, List.map_append, List.map_singleton,
      List.getElem?_concat_length, List.map_singleton]
  sublist := keeps.sublist.append (List.Sublist.refl [item])
  apart := by
    have differs (first : Value) (mem : first ∈ kept) : w.equal first item = false :=
      Bool.eq_false_iff.mpr fun eq =>
        new ((keeps.any_kept item).mp (List.any_eq_true.mpr ⟨first, mem, eq⟩))
    refine List.pairwise_append.mpr ⟨keeps.apart, List.pairwise_singleton _ _, ?_⟩
    intro first mem last is
    rw [List.mem_singleton.mp is]
    exact ⟨differs first mem, equal_comm item first ▸ differs first mem⟩
  left_out i last found := by
    rw [List.mem_append, List.mem_singleton, not_or]
    rcases getElem?_append_last found with ⟨lt, found⟩ | ⟨rfl, rfl⟩
    · rw [repeats_append (Nat.le_of_lt lt), ← keeps.left_out i last found]
      exact and_iff_left (Nat.ne_of_lt lt)
    · rw [repeats_append (Nat.le_refl _)]
      exact iff_of_false (fun other => other.2 rfl) new

end KeepsFirsts

theorem distinct_append (w : World) (items : List Value) (item : Value) :
    w.distinct (items ++ [item]) =
      if (w.distinct items).any (w.equal · item) then w.distinct items
      else w.distinct items ++ [item] := by
  unfold distinct
  rw [List.foldl_append]
  rfl

theorem keepsFirsts_distinct (w : World) (items : List Value) :
    ∃ places, w.KeepsFirsts items (w.distinct items) places := by
  induction items using List.reverseRecOn with
  | nil => exact ⟨[], .nil, rfl, by simp, .slnil, .nil⟩
  | append_singleton items item ih =>
    obtain ⟨places, keeps⟩ := ih
    rw [distinct_append]
    split
    case isTrue some => exact ⟨_, keeps.step_repeated ((keeps.any_kept item).mp some)⟩
    case isFalse none => exact ⟨_, keeps.step_new (mt (keeps.any_kept item).mpr none)⟩

theorem distinct_eq_self (apart : items.Pairwise fun a b => w.equal a b = false) :
    w.distinct items = items := by
  induction items using List.reverseRecOn with
  | nil => rfl
  | append_singleton items item ih =>
    obtain ⟨before, _, last⟩ := List.pairwise_append.mp apart
    rw [distinct_append, ih before, if_neg]
    rw [List.any_eq_true]
    rintro ⟨first, mem, eq⟩
    rw [last first mem item List.mem_cons_self] at eq
    cases eq

theorem equal_nan {n : Float} (nan : n.isNaN = true) (a : Value) :
    w.equal a (.number n) = false := by
  have itself : w.equal (.number n) (.number n) = (n == n) := by
    unfold equal equalWithin
    rfl
  refine Bool.eq_false_iff.mpr fun eq => ?_
  have reflexive := equal_trans (equal_comm (w := w) _ _ ▸ eq) eq
  rw [itself, Number.beq_self_iff, nan] at reflexive
  cases reflexive

theorem KeepsFirsts.nan_kept (keeps : w.KeepsFirsts items kept places) {i : Nat} {n : Float}
    (found : items[i]? = some (.number n)) (nan : n.isNaN = true) : i ∈ places := by
  refine not_not.mp fun missing => ?_
  obtain ⟨_, _, earlier, _, eq⟩ := (keeps.left_out i _ found).mp missing
  rw [equal_nan nan] at eq
  cases eq

theorem yields_uniq (w : World) (c : Value) :
    w.Yields "uniq" [c] (.seq w.objects.size)
      (w.push (.seq (w.distinct (w.collection c)).toArray)) :=
  ⟨_, rfl, rfl⟩

end World

open World in
/-- The distinct items of a collection, or of a text or anything else, make a new sequence: they are
the items at certain places in order, without those that equal an earlier item, so that no two of
them are equal, and with everything that is not a number. If the handles in the items are those of
objects, the new sequence changes no equality among them, and its own distinct items are the very
same again. -/
theorem uniq_keeps_first_items (w : World) (c : Value) : ∃ kept places w',
    w.Yields "uniq" [c] (.seq w.objects.size) w' ∧ w' = w.push (.seq kept.toArray) ∧
    w.KeepsFirsts (w.collection c) kept places ∧
    (∀ i n, (w.collection c)[i]? = some (.number n) → n.isNaN = true → i ∈ places) ∧
    ((∀ item ∈ w.collection c, ∀ s, w.Reaches item s → s < w.objects.size) →
      (∀ a ∈ w.collection c, ∀ b ∈ w.collection c, w'.equal a b = w.equal a b) ∧
      w'.Yields "uniq" [.seq w.objects.size] (.seq w'.objects.size)
        (w'.push (.seq kept.toArray))) := by
  obtain ⟨places, keeps⟩ := w.keepsFirsts_distinct (w.collection c)
  refine ⟨_, places, _, w.yields_uniq c, rfl, keeps, fun i n => keeps.nan_kept, fun present => ?_⟩
  generalize w.distinct (w.collection c) = kept at keeps ⊢
  have same (a : Value) (mem : a ∈ w.collection c) (b : Value) (mem' : b ∈ w.collection c) :
      (w.push (.seq kept.toArray)).equal a b = w.equal a b :=
    Grows.equal (.push w rfl) (present a mem) (present b mem')
  have apart : kept.Pairwise fun a b => (w.push (.seq kept.toArray)).equal a b = false :=
    keeps.apart.imp_of_mem fun {a b} mem mem' differ =>
      (same a (keeps.sublist.subset mem) b (keeps.sublist.subset mem')).trans differ.1
  refine ⟨same, ?_⟩
  have again := yields_uniq (w.push (.seq kept.toArray)) (.seq w.objects.size)
  have listed : (w.push (.seq kept.toArray)).collection (.seq w.objects.size) = kept :=
    w.items_push kept
  rwa [listed, distinct_eq_self apart] at again

open World in
/-- Two sequences of one number are equal, two of what is not a number are so only if they are the
same; and what is not a number occurs twice. A field that repeats another one is left out, and so is
a letter. -/
theorem distinct_nested_items :
    let w := { World.initial with
      objects := #[.seq #[.number Number.nan], .seq #[.number 1], .seq #[.number 1],
        .seq #[.seq 0, .number Number.nan, .seq 1, .seq 0, .number Number.nan, .seq 2],
        .record (.ofList [("a", .bool true), ("b", .null), ("c", .bool true)])] }
    (∀ item ∈ w.collection (.seq 3), ∀ s, w.Reaches item s → s < w.objects.size) ∧
    (∃ kept places w', w.KeepsFirsts (w.collection (.seq 3)) kept places ∧ kept.length = 4 ∧
      1 ∈ places ∧ 4 ∈ places ∧ w.Yields "uniq" [.seq 3] (.seq 5) w' ∧
      w'.Yields "uniq" [.seq 5] (.seq 6) (w'.push (.seq kept.toArray))) ∧
    (∃ kept places w', w.KeepsFirsts (w.collection (.record 4)) kept places ∧ kept.length = 2 ∧
      w.Yields "uniq" [.record 4] (.seq 5) w') ∧
    ∃ kept places w', w.KeepsFirsts (w.collection (.str "noon")) kept places ∧ kept.length = 2 ∧
      w.Yields "uniq" [.str "noon"] (.seq 5) w' := by
  intro w
  have single (r : Ref) (n : Float) (lt : r < 5) (there : w.held r = [.number n]) :
      w.Fathoms 1 (.seq r) := .object rfl lt fun u mem => by
    rw [there, List.mem_singleton] at mem
    exact mem ▸ .scalar rfl
  have each : ∀ item ∈ w.collection (.seq 3), w.Fathoms 1 item := by
    have nan : w.Fathoms 1 (.number Number.nan) := .scalar rfl
    have first := single 0 Number.nan (by decide) rfl
    show ∀ item ∈ [Value.seq 0, .number Number.nan, .seq 1, .seq 0, .number Number.nan, .seq 2],
      w.Fathoms 1 item
    simp only [List.forall_mem_cons]
    exact ⟨first, nan, single 1 1 (by decide) rfl, first, nan, single 2 1 (by decide) rfl,
      List.forall_mem_nil _⟩
  have present (item : Value) (mem : item ∈ w.collection (.seq 3)) (s : Ref)
      (reaches : w.Reaches item s) : s < w.objects.size := (each item mem).lt reaches
  -- the new sequence is the one that the run ends with
  have counted {c : Value} {kept : List Value}
      (yields : w.Yields "uniq" [c] (.seq w.objects.size) (w.push (.seq kept.toArray))) :
      kept.length = (w.distinct (w.collection c)).length := by
    have listed := congrArg (·.items w.objects.size) (yields.unique (w.yields_uniq c)).2
    rw [w.items_push, w.items_push] at listed
    rw [listed]
  refine ⟨present, ?_, ?_, ?_⟩
  · obtain ⟨kept, places, w', yields, rfl, keeps, nan, later⟩ := uniq_keeps_first_items w (.seq 3)
    exact ⟨kept, places, _, keeps, (counted yields).trans (by decide +kernel),
      nan 1 _ rfl (by decide +kernel), nan 4 _ rfl (by decide +kernel), yields, (later present).2⟩
  · obtain ⟨kept, places, w', yields, rfl, keeps, _⟩ := uniq_keeps_first_items w (.record 4)
    exact ⟨kept, places, _, keeps, (counted yields).trans (by decide +kernel), yields⟩
  · obtain ⟨kept, places, w', yields, rfl, keeps, _⟩ := uniq_keeps_first_items w (.str "noon")
    exact ⟨kept, places, _, keeps, (counted yields).trans (by decide +kernel), yields⟩

end Accessors
