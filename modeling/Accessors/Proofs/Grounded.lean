import Accessors.Proofs.Conversion

/-! Values that keep their shape while instances fill their slots. Such a value leads only to
objects that exist, and to entities of a known set; filling slots makes new objects and changes
none of those that are there, so the value looks the same afterwards. Two values of two worlds
match when both are so and they look alike at every depth. -/

namespace Accessors

def Region.filling (n : Nat) : Region := ⟨fun r => n ≤ r, fun _ => False, fun _ _ => True⟩

def Region.among (w : World) (D : Ref → Prop) : Region :=
  ⟨fun r => ∀ item ∈ w.held r, ∀ s, w.Contains item (.entity s) → D s, D, fun _ _ => False⟩

namespace World

def Fills (w w' : World) : Prop :=
  (Region.filling w.objects.size).Evolves w w'

/-- What the value leads to exists, and every entity that is met is one of the set. -/
structure Grounded (w : World) (D : Ref → Prop) (v : Value) : Prop where
  present : ∀ s, w.Reaches v s → s < w.objects.size
  among : ∀ s, w.Contains v (.entity s) → D s

structure Matches (D : Ref → Prop) (w w' : World) (v v' : Value) : Prop where
  left : w.Grounded D v
  right : w'.Grounded D v'
  shape : ∀ levels, w'.shape levels v' = w.shape levels v

end World

namespace Region
variable {w w' : World} {D : Ref → Prop} {v : Value}

theorem within_among (h : ∀ s, w.Contains v (.entity s) → D s) : (among w D).within v := by
  have inside {r : Ref} (handle : v.handle? = some r) : (among w D).inside r :=
    fun _ held s contains => h s (.inside handle held contains)
  cases v with
  | seq r | record r | date r => exact inside rfl
  | entity r => exact h r (.self _)
  | _ => trivial

theorem sealed_among (w : World) (D : Ref → Prop) : (among w D).Sealed w where
  fresh r new := by
    intro item held
    rw [World.held_of_size new] at held
    cases held
  held r inside v held := within_among (inside v held)
  slots _ _ _ never := never.elim

theorem Sealed.among (sealed : (among w D).Sealed w') (bare : ∀ s, D s → w'.held s = [])
    (within : (among w D).within v) (s : Ref) (contains : w'.Contains v (.entity s)) : D s := by
  have still : (Region.among w D).within (.entity s) := by
    refine contains.within (fun u hu r handle item held => ?_) within
    cases u with
    | seq r | record r | date r =>
      cases handle
      exact sealed.held _ hu item held
    | entity r =>
      cases handle
      rw [bare _ hu] at held
      cases held
    | _ => cases handle
  exact still

end Region

namespace World

theorem EntityFree.among {w : World} {v : Value} (free : w.EntityFree v) (s : Ref)
    (contains : w.Contains v (.entity s)) : False := by
  cases free _ contains

theorem entityFree_of_among {w : World} {v : Value}
    (none : ∀ s, w.Contains v (.entity s) → False) : w.EntityFree v := by
  intro u contains
  cases u with
  | entity s => exact (none s contains).elim
  | _ => rfl

theorem held_of_typeId {w : World} {r : Ref} {t : TypeId} (typed : w.typeId? r = some t) :
    w.held r = [] := by
  obtain ⟨inst, found⟩ := entity_of_typeId typed
  unfold held
  rw [found]
  rfl

namespace Fills
variable {w w₁ w₂ : World}

theorem refl (w : World) : w.Fills w := Region.Evolves.refl w

theorem trans (first : w.Fills w₁) (second : w₁.Fills w₂) : w.Fills w₂ := by
  have older (r : Ref) (new : w₁.objects.size ≤ r) : w.objects.size ≤ r :=
    Nat.le_trans first.size new
  exact Region.Evolves.trans first (Region.Evolves.mono second older fun _ _ may => may)

theorem of_grows (grows : w.Grows w₁) : w.Fills w₁ :=
  Region.Evolves.mono grows (fun _ new => new) fun _ _ never => never.elim

theorem setSlot (w : World) (r : Ref) (key : StorageKey) (v : Value) :
    w.Fills (w.after (setSlot r key v)) :=
  Region.Evolves.setSlot trivial v

theorem announce (w : World) (report : Report) : w.Fills (w.announce report) :=
  Region.Evolves.announce report

theorem sameOn {v : Value} (fills : w.Fills w₁) (present : ∀ s, w.Reaches v s → s < w.objects.size) :
    SameOn (w.Reaches v) w w₁ :=
  Region.Evolves.same fills fun s reaches new => absurd (present s reaches) (Nat.not_lt.mpr new)

end Fills

namespace Grounded
variable {w w' : World} {D : Ref → Prop} {v item : Value} {r : Ref}

theorem scalar (bare : v.handle? = none) : w.Grounded D v where
  present s reaches := absurd reaches (Reaches.not_of_bare bare s)
  among s contains := by
    have self := contains.of_bare bare
    rw [← self] at bare
    cases bare

theorem inside (h : w.Grounded D v) (handle : v.handle? = some r) (held : item ∈ w.held r) :
    w.Grounded D item where
  present s reaches := h.present s (reaches.inside handle held)
  among s contains := h.among s (.inside handle held contains)

theorem of_held (handle : v.handle? = some r) (plain : v.isEntity = false)
    (lt : r < w.objects.size) (inner : ∀ item ∈ w.held r, w.Grounded D item) : w.Grounded D v where
  present s := by
    rintro ⟨u, contains, reached⟩
    cases contains with
    | self =>
      cases handle.symm.trans reached
      exact lt
    | inside here held rest =>
      cases handle.symm.trans here
      exact (inner _ held).present s ⟨u, rest, reached⟩
  among s contains := by
    cases contains with
    | self => cases plain
    | inside here held rest =>
      cases handle.symm.trans here
      exact (inner _ held).among s rest

theorem fills (h : w.Grounded D v) (fills : w.Fills w') : w'.Grounded D v where
  present s reaches := by
    rw [(fills.sameOn h.present).reaches fun _ => .start] at reaches
    exact Nat.lt_of_lt_of_le (h.present s reaches) fills.size
  among s contains := by
    rw [(fills.sameOn h.present).contains fun _ => .start] at contains
    exact h.among s contains

theorem shape (h : w.Grounded D v) (fills : w.Fills w') (levels : Nat) :
    w'.shape levels v = w.shape levels v :=
  (fills.sameOn h.present).shape (fun _ => .start) levels

end Grounded

namespace Matches
variable {D : Ref → Prop} {w w' u u' : World} {v v' : Value}

theorem refl (h : w.Grounded D v) : Matches D w w v v := ⟨h, h, fun _ => rfl⟩

theorem fills (h : Matches D w w' v v') (left : w.Fills u) (right : w'.Fills u') :
    Matches D u u' v v' where
  left := h.left.fills left
  right := h.right.fills right
  shape levels := by rw [h.right.shape right, h.left.shape left, h.shape]

theorem of_fills (h : w.Grounded D v) (left : w.Fills u) (right : w.Fills u') :
    Matches D u u' v v :=
  (refl h).fills left right

end Matches

end World

theorem forall₂_of_map_eq {α β γ : Type} {P : α → Prop} {Q : β → Prop} {f : Nat → α → γ}
    {g : Nat → β → γ} {xs : List α} {ys : List β} (left : ∀ x ∈ xs, P x) (right : ∀ y ∈ ys, Q y)
    (same : ∀ n, ys.map (g n) = xs.map (f n)) :
    List.Forall₂ (fun x y => P x ∧ Q y ∧ ∀ n, g n y = f n x) xs ys := by
  induction xs generalizing ys with
  | nil =>
    have none := same 0
    rw [List.map_nil, List.map_eq_nil_iff] at none
    rw [none]
    exact .nil
  | cons x xs ih =>
    cases ys with
    | nil => cases same 0
    | cons y ys =>
      obtain ⟨hx, left⟩ := List.forall_mem_cons.mp left
      obtain ⟨hy, right⟩ := List.forall_mem_cons.mp right
      refine .cons ⟨hx, hy, fun n => ?_⟩ (ih left right fun n => ?_)
      · exact (List.cons.inj (same n)).1
      · exact (List.cons.inj (same n)).2

namespace World

def EntriesMatch (D : Ref → Prop) (w w' : World) : List (String × Value) → List (String × Value) → Prop :=
  List.Forall₂ fun entry entry' => entry'.1 = entry.1 ∧ Matches D w w' entry.2 entry'.2

theorem EntriesMatch.fills {D : Ref → Prop} {w w' u u' : World} {xs ys : List (String × Value)}
    (h : EntriesMatch D w w' xs ys) (left : w.Fills u) (right : w'.Fills u') :
    EntriesMatch D u u' xs ys :=
  h.imp fun _ _ both => ⟨both.1, both.2.fills left right⟩

theorem isUndefined_of_shape {w w' : World} {v v' : Value} (same : w'.shape 0 v' = w.shape 0 v) :
    v'.isUndefined = v.isUndefined := by
  cases v <;> cases v' <;> first | rfl | cases same

namespace Matches
variable {D : Ref → Prop} {w w' : World} {v v' : Value} {r : Ref}

theorem of_scalar (h : Matches D w w' v v') (bare : v.handle? = none) : v' = v := by
  have shape := h.shape 0
  cases v <;> cases bare <;> cases v' <;> cases shape <;> rfl

theorem isEntity (h : Matches D w w' v v') : v'.isEntity = v.isEntity := by
  have shape := h.shape 1
  cases v <;> cases v' <;> first | rfl | cases shape

theorem isUndefined (h : Matches D w w' v v') : v'.isUndefined = v.isUndefined :=
  isUndefined_of_shape (h.shape 0)

theorem of_entity (h : Matches D w w' (.entity r) v') : v' = .entity r := by
  have shape := h.shape 0
  cases v' <;> cases shape
  rfl

theorem of_date (h : Matches D w w' (.date r) v') :
    ∃ r', v' = .date r' ∧ w'.moment r' = w.moment r := by
  have shape := h.shape 0
  cases v' with
  | date r' => exact ⟨r', rfl, Shape.date.inj shape⟩
  | _ => cases shape

theorem of_seq (h : Matches D w w' (.seq r) v') :
    ∃ r', v' = .seq r' ∧ List.Forall₂ (Matches D w w') (w.items r) (w'.items r') := by
  obtain ⟨r', rfl⟩ : ∃ r', v' = .seq r' := by
    have shape := h.shape 1
    cases v' with
    | seq r' => exact ⟨r', rfl⟩
    | _ => cases shape
  have items := forall₂_of_map_eq
    (fun item mem => h.left.inside rfl (mem_held_of_items mem))
    (fun item mem => h.right.inside rfl (mem_held_of_items mem))
    fun levels => Shape.seq.inj (h.shape (levels + 1))
  exact ⟨r', rfl, items.imp fun _ _ both => ⟨both.1, both.2.1, both.2.2⟩⟩

theorem of_record (h : Matches D w w' (.record r) v') :
    ∃ r', v' = .record r' ∧ EntriesMatch D w w' (w.fields r).entries (w'.fields r').entries := by
  obtain ⟨r', rfl⟩ : ∃ r', v' = .record r' := by
    have shape := h.shape 1
    cases v' with
    | record r' => exact ⟨r', rfl⟩
    | _ => cases shape
  have entries := forall₂_of_map_eq
    (fun entry mem => h.left.inside rfl (mem_held_of_fields (List.mem_map_of_mem mem)))
    (fun entry mem => h.right.inside rfl (mem_held_of_fields (List.mem_map_of_mem mem)))
    fun levels => Shape.record.inj (h.shape (levels + 1))
  refine ⟨r', rfl, entries.imp fun entry entry' both => ⟨?_, both.1, both.2.1, fun levels => ?_⟩⟩
  · exact (Prod.mk.inj (both.2.2 0)).1
  · exact (Prod.mk.inj (both.2.2 levels)).2

end Matches

end World

end Accessors
