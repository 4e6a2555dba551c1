import Accessors.Proofs.Hearing

/-! Regions: which objects an action may refer to and change. A region is sealed in a world
when what its objects hold stays in it and new objects fall into it; an action confined to
a region then changes nothing outside, keeps the region sealed and gives back only what is
within it. Entities are never changed but at the slots that the region names. -/

namespace Accessors

namespace Object

def inst? : Object → Option Instance
  | entity inst => some inst
  | _ => none

def held : Object → List Value
  | seq items => items.toList
  | record fields => fields.values
  | _ => []

end Object

theorem Instance.slot?_setSlot_other (inst : Instance) {key other : StorageKey}
    (different : key ≠ other) (v : Value) : (inst.setSlot key v).slot? other = inst.slot? other := by
  cases key with
  | named name =>
    cases other with
    | named other =>
      have ne : other ≠ name := fun eq => different (by rw [eq])
      simp [setSlot, slot?, Table.get?_insert, ne]
    | generated id => rfl
  | generated id =>
    cases other with
    | named other => rfl
    | generated other =>
      have ne : other ≠ id := fun eq => different (by rw [eq])
      show List.lookup other ((id, v) :: inst.generated.filter (·.1 ≠ id)) = _
      rw [List.lookup_cons, beq_false_of_ne ne]
      show List.lookup other (inst.generated.filter (·.1 ≠ id)) = List.lookup other inst.generated
      induction inst.generated with
      | nil => rfl
      | cons entry rest ih =>
        obtain ⟨key, value⟩ := entry
        by_cases h : key = id
        · rw [List.filter_cons_of_neg (by simp [h]), ih, List.lookup_cons, h,
            beq_false_of_ne ne]
        · rw [List.filter_cons_of_pos (by simpa using h), List.lookup_cons, List.lookup_cons, ih]

namespace World

def held (w : World) (r : Ref) : List Value :=
  (w.objects[r]?.map Object.held).getD []

theorem instance?_eq (w : World) (r : Ref) : w.instance? r = w.objects[r]?.bind Object.inst? := by
  unfold instance?
  cases w.objects[r]? with
  | none => rfl
  | some o => cases o <;> rfl

theorem sequence_of {w : World} {r : Ref} {items : Array Value}
    (there : w.objects[r]? = some (.seq items)) : w.sequence r = items := by
  unfold sequence
  rw [there]

theorem fields_of {w : World} {r : Ref} {entries : Table Value}
    (there : w.objects[r]? = some (.record entries)) : w.fields r = entries := by
  unfold fields
  rw [there]

theorem mem_held_of_items {w : World} {r : Ref} {v : Value} (h : v ∈ w.items r) :
    v ∈ w.held r := by
  unfold items sequence at h
  unfold held
  split at h
  · rename_i found
    rw [found]
    exact h
  · simp at h

theorem mem_held_of_fields {w : World} {r : Ref} {v : Value} (h : v ∈ (w.fields r).values) :
    v ∈ w.held r := by
  unfold fields at h
  unfold held
  split at h
  · rename_i found
    rw [found]
    exact h
  · simp [Table.values, Table.entries, Table.empty] at h

theorem getElem?_update (w : World) (r s : Ref) (f : Object → Object) :
    (w.update r f).objects[s]? = if r = s then w.objects[s]?.map f else w.objects[s]? :=
  Array.getElem?_modify

theorem update_eq {w : World} {r : Ref} {o : Object} (there : w.objects[r]? = some o)
    (f : Object → Object) : w.update r f = w.update r fun _ => f o := by
  have same : w.objects.modify r f = w.objects.modify r fun _ => f o := by
    refine Array.ext_getElem? fun s => ?_
    rw [Array.getElem?_modify, Array.getElem?_modify]
    split
    · rename_i eq
      rw [← eq, there]
      rfl
    · rfl
  unfold update
  rw [same]

theorem instance?_update {w : World} {f : Object → Object}
    (same : ∀ o, (f o).inst? = o.inst?) (r s : Ref) :
    (w.update r f).instance? s = w.instance? s := by
  rw [instance?_eq, instance?_eq, getElem?_update]
  split
  · cases w.objects[s]? with
    | none => rfl
    | some o => exact same o
  · rfl

theorem typeId?_of_instance {w w' : World} {r : Ref} (same : w'.instance? r = w.instance? r) :
    w'.typeId? r = w.typeId? r := by
  unfold typeId?
  rw [same]

theorem slot?_of_instance {w w' : World} {r : Ref} (same : w'.instance? r = w.instance? r)
    (key : StorageKey) : w'.slot? r key = w.slot? r key := by
  unfold slot?
  rw [same]

theorem typeId?_eq (w : World) (r : Ref) :
    w.typeId? r = (w.objects[r]?.bind Object.inst?).map (·.typeId) := by
  unfold typeId?
  rw [instance?_eq]

theorem entity_of_typeId {w : World} {r : Ref} {t : TypeId} (typed : w.typeId? r = some t) :
    ∃ inst, w.objects[r]? = some (.entity inst) := by
  rw [typeId?_eq] at typed
  cases found : w.objects[r]? with
  | none => simp [found] at typed
  | some o =>
    cases o with
    | entity inst => exact ⟨inst, rfl⟩
    | _ => simp [found, Object.inst?] at typed

theorem object_or_entity {w w' : World} {r : Ref} (typeId : w'.typeId? r = w.typeId? r)
    (object : w.typeId? r = none → w'.objects[r]? = w.objects[r]?) :
    w'.objects[r]? = w.objects[r]? ∨
      ∃ i j, w.objects[r]? = some (.entity i) ∧ w'.objects[r]? = some (.entity j) := by
  cases typed : w.typeId? r with
  | none => exact .inl (object typed)
  | some t =>
    obtain ⟨i, before⟩ := entity_of_typeId typed
    obtain ⟨j, after⟩ := entity_of_typeId (typeId.trans typed)
    exact .inr ⟨i, j, before, after⟩

def push (w : World) (o : Object) : World :=
  { w with objects := w.objects.push o }

theorem getElem?_push (w : World) (o : Object) (r : Ref) :
    (w.push o).objects[r]? = if r = w.objects.size then some o else w.objects[r]? :=
  Array.getElem?_push

theorem instance?_push {w : World} {o : Object} (plain : o.inst? = none) (r : Ref) :
    (w.push o).instance? r = w.instance? r := by
  rw [instance?_eq, instance?_eq, getElem?_push]
  split
  · rename_i h
    rw [h, Array.getElem?_eq_none (Nat.le_refl _)]
    exact plain
  · rfl

theorem typeId?_push {w : World} {r : Ref} {t : TypeId} (typed : w.typeId? r = some t)
    (o : Object) : (w.push o).typeId? r = some t := by
  rw [typeId?_eq, getElem?_push]
  split
  · rename_i h
    rw [typeId?_eq, h, Array.getElem?_eq_none (Nat.le_refl _)] at typed
    cases typed
  · rw [← typeId?_eq]
    exact typed

theorem slot?_push_bare (w : World) (t : TypeId) (r : Ref) (key : StorageKey) :
    (w.push (.entity ⟨t, .empty, []⟩)).slot? r key = w.slot? r key := by
  unfold slot?
  rw [instance?_eq, instance?_eq, getElem?_push]
  split
  · rename_i h
    rw [h, Array.getElem?_eq_none (Nat.le_refl _)]
    cases key with
    | named name => exact Table.get?_eq .empty name
    | generated id => rfl
  · rfl

theorem instance?_setSlot (w : World) (r : Ref) (key : StorageKey) (v : Value) (s : Ref) :
    (w.after (setSlot r key v)).instance? s =
      if r = s then (w.instance? s).map (·.setSlot key v) else w.instance? s := by
  rw [instance?_eq, instance?_eq]
  show ((w.update r _).objects[s]?.bind _) = _
  rw [getElem?_update]
  split
  · cases w.objects[s]? with
    | none => rfl
    | some o => cases o <;> rfl
  · rfl

theorem typeId?_setSlot (w : World) (r : Ref) (key : StorageKey) (v : Value) (s : Ref) :
    (w.after (setSlot r key v)).typeId? s = w.typeId? s := by
  unfold typeId?
  rw [instance?_setSlot]
  split
  · cases w.instance? s with
    | none => rfl
    | some inst => cases key <;> rfl
  · rfl

theorem slot?_setSlot (w : World) (r : Ref) (key : StorageKey) (v : Value) (s : Ref)
    (other : StorageKey) :
    (w.after (setSlot r key v)).slot? s other =
      if r = s ∧ key = other ∧ (w.instance? s).isSome then some v else w.slot? s other := by
  unfold slot?
  rw [instance?_setSlot]
  by_cases h : r = s
  · rw [if_pos h]
    cases w.instance? s with
    | none => simp
    | some inst =>
      by_cases same : key = other
      · subst same
        simpa [h] using inst.slot?_setSlot key v
      · simpa [same] using inst.slot?_setSlot_other same v
  · simp [h]

theorem getElem?_setSlot {w : World} {s : Ref} (plain : w.typeId? s = none) (r : Ref)
    (key : StorageKey) (v : Value) :
    (w.after (setSlot r key v)).objects[s]? = w.objects[s]? := by
  change (w.update r _).objects[s]? = _
  rw [getElem?_update]
  rw [typeId?_eq] at plain
  split
  · cases found : w.objects[s]? with
    | none => rfl
    | some o =>
      rw [found] at plain
      cases o with
      | entity inst => cases plain
      | _ => rfl
  · rfl

theorem held_setSlot (w : World) (r : Ref) (key : StorageKey) (v : Value) (s : Ref) :
    (w.after (setSlot r key v)).held s = w.held s := by
  unfold held
  rcases object_or_entity (w.typeId?_setSlot r key v s) fun plain => getElem?_setSlot plain r key v
    with same | ⟨i, j, before, after⟩
  · rw [same]
  · rw [before, after]
    rfl

end World

def Value.isEntity : Value → Bool
  | entity _ => true
  | _ => false

theorem World.ownMethod?_plain (w : World) {v : Value} (plain : v.isEntity = false)
    (name : String) : w.ownMethod? v name = none := by
  cases v <;> first | rfl | cases plain

/-- Collections and dates that may be changed, entities that may be referred to, and slots
that may be written. -/
structure Region where
  inside : Ref → Prop
  entity : Ref → Prop
  slot : Ref → StorageKey → Prop

namespace Region

def within (R : Region) : Value → Prop
  | .seq r | .record r | .date r => R.inside r
  | .entity r => R.entity r
  | _ => True

def everything : Region := ⟨fun _ => True, fun _ => True, fun _ _ => False⟩

structure Sealed (R : Region) (w : World) : Prop where
  fresh : ∀ r, w.objects.size ≤ r → R.inside r
  held : ∀ r, R.inside r → ∀ v ∈ w.held r, R.within v
  slots : ∀ r key v, R.slot r key → w.slot? r key = some v → R.within v

structure Evolves (R : Region) (w w' : World) : Prop where
  scene : w'.toScene = { w.toScene with objects := w'.objects }
  size : w.objects.size ≤ w'.objects.size
  typeId : ∀ r, w'.typeId? r = w.typeId? r
  slots : ∀ r key, ¬ R.slot r key → w'.slot? r key = w.slot? r key
  others : ∀ r, ¬ R.inside r → w.typeId? r = none → w'.objects[r]? = w.objects[r]?

theorem within_everything (v : Value) : everything.within v := by
  cases v <;> exact trivial

theorem sealed_everything (w : World) : everything.Sealed w where
  fresh _ _ := trivial
  held _ _ v _ := within_everything v
  slots _ _ _ h _ := h.elim

namespace Sealed
variable {R : Region} {w : World}

theorem items (h : R.Sealed w) {r : Ref} (inside : R.inside r) : ∀ v ∈ w.items r, R.within v :=
  fun v mem => h.held r inside v (World.mem_held_of_items mem)

theorem fields (h : R.Sealed w) {r : Ref} (inside : R.inside r) :
    ∀ v ∈ (w.fields r).values, R.within v :=
  fun v mem => h.held r inside v (World.mem_held_of_fields mem)

end Sealed

namespace Evolves
variable {R : Region} {w w₁ w₂ : World}

theorem refl (w : World) : R.Evolves w w :=
  ⟨rfl, Nat.le_refl _, fun _ => rfl, fun _ _ _ => rfl, fun _ _ _ => rfl⟩

theorem trans (first : R.Evolves w w₁) (second : R.Evolves w₁ w₂) : R.Evolves w w₂ where
  scene := by rw [second.scene, first.scene]
  size := Nat.le_trans first.size second.size
  typeId r := (second.typeId r).trans (first.typeId r)
  slots r key h := (second.slots r key h).trans (first.slots r key h)
  others r h plain :=
    (second.others r h ((first.typeId r).trans plain)).trans (first.others r h plain)

theorem types (h : R.Evolves w w₁) : w₁.types = w.types := by rw [h.scene]

theorem mono {R' : Region} (h : R.Evolves w w₁) (inside : ∀ r, R.inside r → R'.inside r)
    (slot : ∀ r key, R.slot r key → R'.slot r key) : R'.Evolves w w₁ where
  scene := h.scene
  size := h.size
  typeId := h.typeId
  slots r key never := h.slots r key fun may => never (slot r key may)
  others r outside := h.others r fun may => outside (inside r may)

theorem update {r : Ref} {f : Object → Object} (inside : R.inside r)
    (same : ∀ o, (f o).inst? = o.inst?) : R.Evolves w (w.update r f) where
  scene := rfl
  size := Nat.le_of_eq Array.size_modify.symm
  typeId s := World.typeId?_of_instance (World.instance?_update same r s)
  slots s key _ := World.slot?_of_instance (World.instance?_update same r s) key
  others s outside _ := by
    rw [World.getElem?_update, if_neg]
    rintro rfl
    exact outside inside

theorem push {o : Object} (sealed : R.Sealed w) (plain : o.inst? = none) :
    R.Evolves w (w.push o) where
  scene := rfl
  size := by simp [World.push]
  typeId s := World.typeId?_of_instance (World.instance?_push plain s)
  slots s key _ := World.slot?_of_instance (World.instance?_push plain s) key
  others s outside _ := by
    rw [World.getElem?_push, if_neg]
    rintro rfl
    exact outside (sealed.fresh _ (Nat.le_refl _))

theorem setSlot {r : Ref} {key : StorageKey} (may : R.slot r key) (v : Value) :
    R.Evolves w (w.after (setSlot r key v)) where
  scene := rfl
  size := Nat.le_of_eq Array.size_modify.symm
  typeId := w.typeId?_setSlot r key v
  slots s other never := by
    rw [World.slot?_setSlot, if_neg]
    rintro ⟨rfl, rfl, _⟩
    exact never may
  others _ _ plain := World.getElem?_setSlot plain r key v

theorem announce (report : Report) : R.Evolves w (w.announce report) :=
  ⟨rfl, Nat.le_refl _, fun _ => rfl, fun _ _ _ => rfl, fun _ _ _ => rfl⟩

end Evolves

namespace Sealed
variable {R : Region} {w : World}

theorem update {f : Object → Object} (sealed : R.Sealed w) (r : Ref)
    (same : ∀ o, (f o).inst? = o.inst?)
    (held : ∀ o, (∀ v ∈ o.held, R.within v) → ∀ v ∈ (f o).held, R.within v) :
    R.Sealed (w.update r f) where
  fresh s h := sealed.fresh s (by simpa [World.update] using h)
  held s hs := by
    unfold World.held
    rw [World.getElem?_update]
    have before := sealed.held s hs
    unfold World.held at before
    split
    · cases found : w.objects[s]? with
      | none => simp
      | some o =>
        rw [found] at before
        exact held o before
    · exact before
  slots s key v h found := by
    rw [World.slot?_of_instance (World.instance?_update same r s)] at found
    exact sealed.slots s key v h found

theorem push {o : Object} (sealed : R.Sealed w) (plain : o.inst? = none)
    (held : ∀ v ∈ o.held, R.within v) : R.Sealed (w.push o) where
  fresh s h := sealed.fresh s (by simp [World.push] at h; omega)
  held s hs := by
    unfold World.held
    rw [World.getElem?_push]
    split
    · exact held
    · exact sealed.held s hs
  slots s key v h found := by
    rw [World.slot?_of_instance (World.instance?_push plain s)] at found
    exact sealed.slots s key v h found

end Sealed

def Kept {α : Type} (R : Region) (Q : α → Prop) (w : World) : Ending α → Prop
  | .ok v w' => R.Evolves w w' ∧ R.Sealed w' ∧ Q v
  | .error _ w' => R.Evolves w w' ∧ R.Sealed w'

end Region

def Confined {α : Type} (R : Region) (Q : α → Prop) (a : Action α) : Prop :=
  ∀ w, R.Sealed w → R.Kept Q w (a.run w)

def Local {α : Type} (R : Region) (Q : α → Prop) (a : Action α) : Prop :=
  ∀ w, R.Sealed w →
    (∀ c h, a.run (w.hearing c h) = Ending.hearing c h (a.run w)) ∧ R.Kept Q w (a.run w)

namespace Region.Kept
variable {α β : Type} {R : Region} {P : α → Prop} {Q : β → Prop} {w : World}

theorem bind {a : Action α} {k : α → Action β} (ha : R.Kept P w (a.run w))
    (hk : ∀ v w', R.Sealed w' → P v → R.Kept Q w' ((k v).run w')) :
    R.Kept Q w ((a >>= k).run w) := by
  rw [EStateM.run_bind]
  cases result : a.run w with
  | error stop w' =>
    rw [result] at ha
    exact ha
  | ok v w' =>
    rw [result] at ha
    obtain ⟨evolves, sealed, value⟩ := ha
    have next := hk v w' sealed value
    show R.Kept Q w ((k v).run w')
    cases further : (k v).run w' with
    | error stop w'' =>
      rw [further] at next
      exact ⟨evolves.trans next.1, next.2⟩
    | ok u w'' =>
      rw [further] at next
      exact ⟨evolves.trans next.1, next.2.1, next.2.2⟩

theorem next {a : Action α} {k : α → Action β} (ha : R.Kept P w (a.run w))
    (hk : ∀ v, P v → Confined R Q (k v)) : R.Kept Q w ((a >>= k).run w) :=
  ha.bind fun v w' sealed' value => hk v value w' sealed'

theorem imp {P' : α → Prop} {e : Ending α} (h : R.Kept P w e) (weaker : ∀ v, P v → P' v) :
    R.Kept P' w e := by
  cases e with
  | ok v w' => exact ⟨h.1, h.2.1, weaker v h.2.2⟩
  | error stop w' => exact h

theorem after {a : Action α} (h : R.Kept P w (a.run w)) :
    R.Evolves w (w.after a) ∧ R.Sealed (w.after a) := by
  unfold World.after
  cases ending : a.run w with
  | ok v w' =>
    rw [ending] at h
    exact ⟨h.1, h.2.1⟩
  | error stop w' =>
    rw [ending] at h
    exact h

end Region.Kept

namespace Local
variable {α β : Type} {R : Region} {P : α → Prop} {Q : β → Prop}

theorem confined {a : Action α} (h : Local R P a) : Confined R P a :=
  fun w sealed => (h w sealed).2

theorem deaf {a : Action α} (h : Local .everything P a) : Deaf a :=
  fun w => (h w (Region.sealed_everything w)).1

theorem pure {v : α} (h : P v) : Local R P (Pure.pure v) :=
  fun w sealed => ⟨fun _ _ => rfl, .refl w, sealed, h⟩

theorem fail (error : Error) : Local R P (fail error) :=
  fun w sealed => ⟨fun _ _ => rfl, .refl w, sealed⟩

theorem ofExcept {x : Except Error α} (h : ∀ v, x = .ok v → P v) : Local R P (ofExcept x) := by
  cases x with
  | ok v => exact pure (h v rfl)
  | error error => exact fail error

theorem attempt (x : Except Stop α) : Local R (fun _ => True) (attempt x) := by
  cases x with
  | ok v => exact pure trivial
  | error stop => exact fun w sealed => ⟨fun _ _ => rfl, .refl w, sealed⟩

theorem bind {a : Action α} {k : α → Action β} (ha : Local R P a)
    (hk : ∀ v, P v → Local R Q (k v)) : Local R Q (a >>= k) := by
  intro w sealed
  obtain ⟨deaf, kept⟩ := ha w sealed
  refine ⟨fun c h => ?_, kept.bind fun v w' sealed' value => (hk v value w' sealed').2⟩
  rw [EStateM.run_bind, EStateM.run_bind, deaf]
  cases result : a.run w with
  | error stop w' => rfl
  | ok v w' =>
    rw [result] at kept
    exact (hk v kept.2.2 w' kept.2.1).1 c h

theorem get {k : World → Action β} (same : ∀ w c h, k (w.hearing c h) = k w)
    (hk : ∀ w, R.Sealed w → Local R Q (k w)) : Local R Q (get >>= k) := by
  intro w sealed
  obtain ⟨deaf, kept⟩ := hk w sealed w sealed
  refine ⟨fun c h => ?_, kept⟩
  show (k (w.hearing c h)).run (w.hearing c h) = _
  rw [same, deaf]
  rfl

theorem mapM {f : α → Action β} {xs : List α} (h : ∀ x ∈ xs, Local R Q (f x)) :
    Local R (∀ v ∈ ·, Q v) (xs.mapM f) := by
  induction xs with
  | nil =>
    rw [List.mapM_nil]
    exact pure (by simp)
  | cons x xs ih =>
    rw [List.mapM_cons]
    refine bind (h x (by simp)) fun v hv => bind (ih fun y hy => h y (by simp [hy])) fun vs hvs => ?_
    exact pure (by simpa using ⟨hv, hvs⟩)

theorem update {r : Ref} {f : Object → Object} (inside : R.inside r)
    (same : ∀ o, (f o).inst? = o.inst?)
    (held : ∀ o, (∀ v ∈ o.held, R.within v) → ∀ v ∈ (f o).held, R.within v) :
    Local R (fun _ => True) (modify (·.update r f)) :=
  fun _ sealed =>
    ⟨fun _ _ => rfl, .update inside same, sealed.update r same held, trivial⟩

theorem alloc {o : Object} (plain : o.inst? = none) (held : ∀ v ∈ o.held, R.within v) :
    Local R R.inside (alloc o) :=
  fun _ sealed =>
    ⟨fun _ _ => rfl, .push sealed plain, sealed.push plain held,
      sealed.fresh _ (Nat.le_refl _)⟩

theorem newSeq {items : List Value} (h : ∀ v ∈ items, R.within v) :
    Local R R.within (newSeq items) :=
  bind (alloc rfl (by simpa [Object.held] using h)) fun _ inside => pure inside

theorem newRecord {fields : Table Value} (h : ∀ v ∈ fields.values, R.within v) :
    Local R R.within (newRecord fields) :=
  bind (alloc rfl h) fun _ inside => pure inside

theorem newDate (moment : Calendar.Moment) : Local R R.within (newDate moment) :=
  bind (alloc rfl (by simp [Object.held])) fun _ inside => pure inside

theorem changeItems {r : Ref} {f : Array Value → Array Value} (inside : R.inside r)
    (h : ∀ items : Array Value, (∀ v ∈ items.toList, R.within v) →
      ∀ v ∈ (f items).toList, R.within v) :
    Local R (fun _ => True) (changeItems r f) := by
  refine update inside (fun o => by cases o <;> rfl) fun o held => ?_
  cases o with
  | seq items => exact h items held
  | record _ | date _ | entity _ => exact held

theorem changeFields {r : Ref} {f : Table Value → Table Value} (inside : R.inside r)
    (h : ∀ fields : Table Value, (∀ v ∈ fields.values, R.within v) →
      ∀ v ∈ (f fields).values, R.within v) :
    Local R (fun _ => True) (changeFields r f) := by
  refine update inside (fun o => by cases o <;> rfl) fun o held => ?_
  cases o with
  | record fields => exact h fields held
  | seq _ | date _ | entity _ => exact held

theorem setMoment {r : Ref} (moment : Calendar.Moment) (inside : R.inside r) :
    Local R (fun _ => True) (setMoment r moment) := by
  refine update inside (fun o => by cases o <;> rfl) fun o held => ?_
  cases o <;> exact held

end Local

namespace Confined
variable {α β : Type} {R : Region} {P : α → Prop} {Q : β → Prop}

theorem pure {v : α} (h : P v) : Confined R P (Pure.pure v) := (Local.pure h).confined

theorem fail (error : Error) : Confined R P (fail error) := (Local.fail error).confined

theorem bind {a : Action α} {k : α → Action β} (ha : Confined R P a)
    (hk : ∀ v, P v → Confined R Q (k v)) : Confined R Q (a >>= k) :=
  fun w sealed => (ha w sealed).next hk

theorem get {k : World → Action β} (hk : ∀ w, R.Sealed w → Confined R Q (k w)) :
    Confined R Q (get >>= k) :=
  fun w sealed => hk w sealed w sealed

theorem setSlot {r : Ref} {key : StorageKey} {v : Value} (may : R.slot r key)
    (within : R.within v) : Confined R (fun _ => True) (setSlot r key v) := by
  intro w sealed
  have evolves : R.Evolves w (w.after (Accessors.setSlot r key v)) := .setSlot may v
  have still : R.Sealed (w.after (Accessors.setSlot r key v)) := by
    refine ⟨fun s h => ?_, fun s hs u mem => ?_, fun s other u hs found => ?_⟩
    · exact sealed.fresh s (Nat.le_trans evolves.size h)
    · rw [World.held_setSlot] at mem
      exact sealed.held s hs u mem
    · rw [World.slot?_setSlot] at found
      split at found
      · cases found
        exact within
      · exact sealed.slots s other u hs found
  exact ⟨evolves, still, trivial⟩

theorem report (kind : ReportKind) (text : String) :
    Confined R (fun _ => True) (report kind text) := by
  intro w sealed
  have announced : R.Evolves w (w.announce ⟨kind, text⟩) := .announce _
  have still : R.Sealed (w.announce ⟨kind, text⟩) :=
    ⟨sealed.fresh, sealed.held, sealed.slots⟩
  show R.Kept _ w (EStateM.run (if (w.announce ⟨kind, text⟩).channel.strict then _ else _) _)
  split
  · exact ⟨announced, still⟩
  · exact ⟨announced, still, trivial⟩

end Confined

end Accessors
