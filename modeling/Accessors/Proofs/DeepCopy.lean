import Accessors.Proofs.AlikeEquality
import Accessors.Proofs.LaterChanges

/-! Deep copies are separate from what they were made of. Copying puts new collections and dates
after the objects that were there, those of an item right after those of the item before it and a
collection after its items; so each of them is led to along one path, whatever the original shares.
Main statement: `deep_copy_separates`. -/

namespace Accessors

namespace World

def Extends (w w' : World) : Prop :=
  ∃ added : Array Object, (∀ o ∈ added, o.inst? = none) ∧
    w' = { w with objects := w.objects ++ added }

namespace Extends
variable {w w₁ w₂ : World}

theorem refl (w : World) : w.Extends w := ⟨#[], by simp, by simp⟩

theorem trans (first : w.Extends w₁) (second : w₁.Extends w₂) : w.Extends w₂ := by
  obtain ⟨added, plain, rfl⟩ := first
  obtain ⟨more, plain', rfl⟩ := second
  refine ⟨added ++ more, fun o mem => ?_, by simp⟩
  exact (Array.mem_append.mp mem).elim (plain o) (plain' o)

theorem push (w : World) {o : Object} (plain : o.inst? = none) : w.Extends (w.push o) :=
  ⟨#[o], by simpa using plain, congrArg (fun objects => { w with objects }) Array.push_eq_append⟩

theorem instance? (later : w.Extends w₁) (r : Ref) : w₁.instance? r = w.instance? r := by
  obtain ⟨added, plain, rfl⟩ := later
  rw [instance?_eq, instance?_eq, Array.getElem?_append]
  split
  · rfl
  · rename_i new
    rw [Array.getElem?_eq_none (Nat.not_lt.mp new)]
    cases found : added[r - w.objects.size]? with
    | none => rfl
    | some o => exact plain o (Array.mem_of_getElem? found)

theorem grows (later : w.Extends w₁) : w.Grows w₁ where
  scene := by
    obtain ⟨added, _, rfl⟩ := later
    rfl
  size := by
    obtain ⟨added, _, rfl⟩ := later
    simp
  typeId r := typeId?_of_instance (later.instance? r)
  slots r key _ := slot?_of_instance (later.instance? r) key
  others r older _ := by
    obtain ⟨added, _, rfl⟩ := later
    exact Array.getElem?_append_left (Nat.not_le.mp older)

end Extends

theorem Grows.handleAt? {w w' : World} {v : Value} (grows : w.Grows w') (finite : w.Finite v) :
    w'.handleAt? v = w.handleAt? v := by
  obtain ⟨n, fathomed⟩ := finite
  exact (grows.sameOn fathomed).handleAt? fun _ => .start

theorem Grows.finite {w w' : World} {v : Value} (grows : w.Grows w') (finite : w.Finite v) :
    w'.Finite v :=
  finite.imp fun _ => grows.fathoms

theorem Grows.handleAmong? {w w' : World} {vs : List Value} (grows : w.Grows w')
    (finite : ∀ v ∈ vs, w.Finite v) : w'.handleAmong? vs = w.handleAmong? vs := by
  funext path
  cases path with
  | nil => rfl
  | cons i path =>
    rw [handleAmong?_cons, handleAmong?_cons]
    cases found : vs[i]? with
    | none => rfl
    | some v => exact congrFun (grows.handleAt? (finite v (List.mem_of_getElem? found))) path

/-- New objects were made, and a value of new collections and dates leads to each of its own along
one path. -/
structure Made (w : World) (u : Value) (w' : World) : Prop where
  since : w.Extends w'
  finite : w'.Finite u
  laid : Laid (w'.handleAt? u) w.objects.size w'.objects.size

structure MadeAll (w : World) (us : List Value) (w' : World) : Prop where
  since : w.Extends w'
  finite : ∀ u ∈ us, w'.Finite u
  laid : Laid (w'.handleAmong? us) w.objects.size w'.objects.size

theorem MadeAll.nil (w : World) : w.MadeAll [] w :=
  ⟨.refl w, by simp, .nil w.objects.size⟩

theorem Made.cons {w w₁ w₂ : World} {u : Value} {us : List Value} (first : w.Made u w₁)
    (rest : w₁.MadeAll us w₂) : w.MadeAll (u :: us) w₂ where
  since := first.since.trans rest.since
  finite := List.forall_mem_cons.mpr ⟨rest.since.grows.finite first.finite, rest.finite⟩
  laid := by
    refine .cons ?_ rest.laid
    rw [rest.since.grows.handleAt? first.finite]
    exact first.laid

theorem Made.of_bare {v : Value} (w : World) (bare : v.plainHandle? = none) (finite : w.Finite v) :
    w.Made v w :=
  ⟨.refl w, finite, .bare w.objects.size bare⟩

theorem MadeAll.push {w w₁ : World} {us : List Value} (all : w.MadeAll us w₁) {o : Object}
    (plain : o.inst? = none) {u : Value} (own : u.plainHandle? = some w₁.objects.size)
    (held : o.held = us) (children : (w₁.push o).children u = us) : w.Made u (w₁.push o) where
  since := all.since.trans (.push w₁ plain)
  finite := by
    have grows : w₁.Grows (w₁.push o) := .push w₁ plain
    have handle := (Value.handle?_of_plain own).1
    refine ⟨(w₁.push o).levels + 1, .object handle (w₁.lt_push o) fun x mem => ?_⟩
    rw [held_push, held] at mem
    exact (grows.finite (all.finite x mem)).choose_spec.levels
  laid := by
    have grows : w₁.Grows (w₁.push o) := .push w₁ plain
    have size : (w₁.push o).objects.size = w₁.objects.size + 1 := Array.size_push o
    rw [size]
    refine .above ?_ own
    rw [children, grows.handleAmong? all.finite]
    exact all.laid

end World

theorem mapM_made {α β : Type} {f : α → Action β} {val : β → Value} {Q : α → β → Prop}
    {w₀ w : World} {xs : List α}
    (each : ∀ x ∈ xs, ∀ w, w₀.Grows w →
      ∃ y w', (f x).run w = .ok y w' ∧ w.Made (val y) w' ∧ Q x y) (grows : w₀.Grows w) :
    ∃ ys w', (xs.mapM f).run w = .ok ys w' ∧ w.MadeAll (ys.map val) w' ∧ List.Forall₂ Q xs ys := by
  induction xs generalizing w with
  | nil => exact ⟨[], w, rfl, .nil w, .nil⟩
  | cons x xs ih =>
    obtain ⟨here, later⟩ := List.forall_mem_cons.mp each
    obtain ⟨y, w₁, first, made, hy⟩ := here w grows
    obtain ⟨ys, w₂, rest, all, hys⟩ := ih later (grows.trans made.since.grows)
    refine ⟨y :: ys, w₂, ?_, made.cons all, .cons hy hys⟩
    rw [List.mapM_cons, EStateM.run_bind, first]
    dsimp only
    rw [EStateM.run_bind, rest]
    rfl

section
variable {w w₁ : World}

theorem newDate_made (w : World) (moment : Calendar.Moment) :
    ∃ u w', (newDate moment).run w = .ok u w' ∧ w.Made u w' :=
  ⟨.date w.objects.size, w.push (.date moment), rfl, (World.MadeAll.nil w).push rfl rfl rfl rfl⟩

theorem newSeq_made {items : List Value} (all : w.MadeAll items w₁) :
    ∃ u w', (newSeq items).run w₁ = .ok u w' ∧ w.Made u w' :=
  ⟨.seq w₁.objects.size, w₁.push (.seq items.toArray), rfl,
    all.push rfl rfl rfl (congrArg Array.toList (w₁.sequence_push items.toArray))⟩

theorem newRecord_made {entries : List (String × Value)} (all : w.MadeAll (entries.map Prod.snd) w₁)
    (distinct : (entries.map Prod.fst).Nodup) :
    ∃ u w', (newRecord (Table.ofList entries)).run w₁ = .ok u w' ∧ w.Made u w' := by
  have values : (Table.ofList entries).values = entries.map Prod.snd :=
    congrArg (List.map Prod.snd) (Table.entries_ofList distinct)
  exact ⟨.record w₁.objects.size, w₁.push (.record (Table.ofList entries)), rfl,
    all.push rfl rfl values ((congrArg Table.values (w₁.fields_push _)).trans values)⟩

end

theorem deepCopyWithin_made {w : World} {levels : Nat} {v : Value} (h : w.Fathoms levels v) :
    ∃ u w', (deepCopyWithin levels v).run w = .ok u w' ∧ w.Made u w' := by
  induction levels generalizing v w with
  | zero =>
    cases h with
    | scalar bare =>
      have whole : w.Finite v := ⟨0, .scalar bare⟩
      unfold deepCopyWithin
      cases v with
      | seq r | record r | date r | entity r => cases bare
      | _ => exact ⟨_, w, rfl, .of_bare w rfl whole⟩
  | succ levels ih =>
    -- An item is copied in a world that has grown since, and has the same ends there.
    have inside {item : Value} {r : Ref} (handle : v.handle? = some r) (held : item ∈ w.held r)
        (w' : World) (grows : w.Grows w') :
        ∃ u w'', (deepCopyWithin levels item).run w' = .ok u w'' ∧ w'.Made u w'' :=
      ih (grows.fathoms (h.inner handle item held))
    unfold deepCopyWithin
    rw [EStateM.run_bind, EStateM.run_get]
    cases v with
    | seq r =>
      have copies (item : Value) (mem : item ∈ w.items r) (w' : World) (grows : w.Grows w') :
          ∃ u w'', (deepCopyWithin levels item).run w' = .ok u w'' ∧ w'.Made (id u) w'' ∧ True := by
        obtain ⟨u, w'', run, made⟩ := inside rfl (World.mem_held_of_items mem) w' grows
        exact ⟨u, w'', run, made, trivial⟩
      obtain ⟨items, w₁, copied, all, _⟩ := mapM_made (Q := fun _ _ => True) copies (.refl w)
      rw [List.map_id] at all
      dsimp only
      rw [EStateM.run_bind, copied]
      exact newSeq_made all
    | record r =>
      have copies (entry : String × Value) (mem : entry ∈ (w.fields r).entries) (w' : World)
          (grows : w.Grows w') :
          ∃ after w'', (do return (entry.1, ← deepCopyWithin levels entry.2)).run w' =
            .ok after w'' ∧ w'.Made after.2 w'' ∧ after.1 = entry.1 := by
        have held := World.mem_held_of_fields (List.mem_map_of_mem (f := Prod.snd) mem)
        obtain ⟨u, w'', run, made⟩ := inside rfl held w' grows
        refine ⟨(entry.1, u), w'', ?_, made, rfl⟩
        rw [EStateM.run_bind, run]
        rfl
      obtain ⟨entries, w₁, copied, all, names⟩ := mapM_made copies (.refl w)
      dsimp only
      rw [EStateM.run_bind, copied]
      refine newRecord_made all ?_
      rw [map_eq_of_forall₂ names]
      exact (w.fields r).keys_nodup
    | date r => exact newDate_made w (w.moment r)
    | entity r => exact ⟨.entity r, w, rfl, .of_bare w rfl ⟨_, h⟩⟩
    | _ => exact ⟨_, w, rfl, .of_bare w rfl ⟨_, h⟩⟩

theorem Region.sealed_newer (w : World) : (newer w.objects.size).Sealed w where
  fresh _ new := new
  held r new v held := by
    rw [World.held_of_size new] at held
    cases held
  slots _ _ _ never := never.elim

theorem Region.Sealed.newer {n : Nat} {w : World} {u : Value} (sealed : (newer n).Sealed w)
    (within : (Region.newer n).within u) : (∀ s, w.Reaches u s → n ≤ s) ∧ w.EntityFree u := by
  have still (x : Value) (contains : w.Contains u x) : (Region.newer n).within x := by
    refine contains.within (fun y hy r handle item held => sealed.held r ?_ item held) within
    cases y <;> cases handle <;> first | exact hy | exact hy.elim
  refine ⟨?_, fun x contains => ?_⟩
  · rintro s ⟨x, contains, handle⟩
    have inside := still x contains
    cases x <;> cases handle <;> first | exact inside | exact inside.elim
  · have inside := still x contains
    cases x <;> first | rfl | exact inside.elim

section
variable {w w' : World} {v c : Value}

theorem World.Made.equal_iff (made : w.Made c w') (finite : w.Finite v)
    (same : ∀ levels, w'.shape levels c = w.shape levels v) :
    w'.equal c v = true ↔ w.NaNFree v := by
  have fathomed : w.Fathoms w.levels v := finite.choose_spec.levels
  have grows := made.since.grows
  have before := grows.sameOn fathomed
  have alike : World.SameShape w' w' v c := fun levels =>
    (same levels).trans (grows.shape fathomed levels).symm
  have disjoint : w'.Disjoint c v := by
    intro path s led led'
    rw [grows.handleAt? finite] at led'
    exact Nat.not_lt.mpr (made.laid.range path s led).1 (fathomed.lt (reaches_of_handleAt? led'))
  have free : w'.NaNFree v ↔ w.NaNFree v := by
    unfold NaNFree
    simp only [before.follow? fun _ => Reaches.start]
  rw [← free]
  exact alike.equal_iff made.finite.choose_spec.levels disjoint (Nat.le_refl _)

theorem deepCopy_same_shape (finite : w.Finite v) (run : (deepCopy v).run w = .ok c w')
    (levels : Nat) : w'.shape levels c = w.shape levels v := by
  obtain ⟨n, fathomed⟩ := finite
  have built := deepCopy_builds (R := .everything) fathomed (fun _ _ => trivial)
    (Region.sealed_everything w)
  rw [run] at built
  exact built.2.2.shape levels

theorem deepCopy_newer (finite : w.Finite v) (free : w.EntityFree v)
    (run : (deepCopy v).run w = .ok c w') :
    (∀ s, w'.Reaches c s → w.objects.size ≤ s) ∧ w'.EntityFree c := by
  obtain ⟨n, fathomed⟩ := finite
  have built := deepCopy_builds (R := .newer w.objects.size) fathomed free.among
    (Region.sealed_newer w)
  rw [run] at built
  exact built.2.1.newer built.2.2.within

end

/-- Deep copies separate. Copying a value that contains no cycle adds objects and changes none. Each
sequence, record and date that a path of positions leads to in the copy is a new one, which no other
path leads to; entities are at the same places in both, and the copy has the shape of the value,
with the same scalars, dates and keys in the same order. The two are equal exactly when no path
leads to something that is not a number in the value. And when there is no entity in the value, then
whatever happens later to the objects that one side leads to, and to any others but those of the
other side, this other side has the same text and the same JSON form as before. -/
theorem deep_copy_separates {w : World} {v : Value} (finite : w.Finite v) :
    ∃ c w', (deepCopy v).run w = .ok c w' ∧
      (∃ added, w' = { w with objects := w.objects ++ added }) ∧
      (∀ path s, w'.handleAt? c path = some s → w.objects.size ≤ s ∧
        ∀ other, w'.handleAt? c other = some s → other = path) ∧
      (∀ path r, w'.follow? c path = some (.entity r) ↔ w.follow? v path = some (.entity r)) ∧
      (∀ levels, w'.shape levels c = w.shape levels v) ∧
      (w'.equal c v = true ↔ ∀ path x, w.follow? v path = some (.number x) → x.isNaN = false) ∧
      (w.EntityFree v → ∀ side other, side = c ∧ other = v ∨ side = v ∧ other = c → ∀ w₂,
        Mutations (fun r => w'.Reaches side r ∨ ¬ w'.Reaches other r) w' w₂ →
          w₂.display other = w'.display other ∧
            ∃ json, (Operation.valueToJson other).perform.run w' = .ok json w' ∧
              (Operation.valueToJson other).perform.run w₂ = .ok json w₂) := by
  have fathomed : w.Fathoms w.levels v := finite.choose_spec.levels
  obtain ⟨c, w', run, made⟩ := deepCopyWithin_made fathomed
  have same := deepCopy_same_shape finite run
  have grows := made.since.grows
  obtain ⟨added, _, extended⟩ := made.since
  refine ⟨c, w', run, ⟨added, extended⟩, fun path s led => ?_, fun path r => ?_, same,
    made.equal_iff finite same, fun free side other sides w₂ later => ?_⟩
  · exact ⟨(made.laid.range path s led).1, fun other led' => made.laid.once other path s led' led⟩
  · exact World.SameShape.follow?_iff same rfl
  · obtain ⟨newer, free'⟩ := deepCopy_newer finite free run
    have before := grows.sameOn fathomed
    have older (s : Ref) (reaches : w'.Reaches v s) : s < w.objects.size :=
      fathomed.lt ((before.reaches fun _ => .start).mp reaches)
    -- The copy leads to what is newer than the value, the value to what is older than the copy.
    have apart (s : Ref) (one : w'.Reaches other s) : ¬ w'.Reaches side s := by
      intro both
      rcases sides with ⟨rfl, rfl⟩ | ⟨rfl, rfl⟩
      · exact Nat.not_lt.mpr (newer s both) (older s one)
      · exact Nat.not_lt.mpr (newer s one) (older s both)
    have whole : w'.Finite other ∧ w'.EntityFree other := by
      rcases sides with ⟨rfl, rfl⟩ | ⟨rfl, rfl⟩
      · exact ⟨grows.finite finite, before.entityFree (fun _ => .start) free⟩
      · exact ⟨made.finite, free'⟩
    refine later.unobserved whole.1 whole.2 fun s reaches touched => ?_
    exact touched.elim (apart s reaches) fun never => never reaches

def sharedItem : World :=
  { World.initial with objects := #[.seq #[.seq 1, .seq 1], .seq #[.number 1]] }

/-- The two items are the same object, and their copies are not. -/
theorem shared_item_copied_twice :
    let w := sharedItem
    w.Finite (.seq 0) ∧ w.handleAt? (.seq 0) [0] = w.handleAt? (.seq 0) [1] ∧
      ∃ c w', (deepCopy (.seq 0)).run w = .ok c w' ∧
        ∃ s t, w'.handleAt? c [0] = some s ∧ w'.handleAt? c [1] = some t ∧ s ≠ t := by
  intro w
  have outer : w.held 0 = [.seq 1, .seq 1] := rfl
  have inner : w.held 1 = [.number 1] := rfl
  have item : w.Fathoms 1 (.seq 1) := by
    refine .object rfl (by decide) fun u held => ?_
    rw [inner, List.mem_singleton] at held
    exact held ▸ .scalar rfl
  have finite : w.Finite (.seq 0) := by
    refine ⟨2, .object rfl (by decide) fun u held => ?_⟩
    rw [outer, List.mem_pair, or_self] at held
    exact held ▸ item
  obtain ⟨c, w', run, _, once, _⟩ := deep_copy_separates finite
  have ran : (deepCopy (.seq 0)).run w = .ok (.seq 4) { w with objects := w.objects ++
      #[.seq #[.number 1], .seq #[.number 1], .seq #[.seq 2, .seq 3]] } := rfl
  cases run.symm.trans ran
  refine ⟨finite, rfl, _, _, run, 2, 3, rfl, rfl, fun eq => ?_⟩
  cases (once [0] 2 rfl).2 [1] (congrArg some eq.symm)

end Accessors
