import Accessors.Proofs.Library
import Accessors.Proofs.Shape
import Mathlib.Data.List.Forall2

/-! Copies are apart from what they were made from. An action that only makes new objects
leaves every value that was there as it looks; a deep copy of a value without entities, and a
shallow copy of one whose items are scalars, consist of such new objects only and look as
the value does. -/

namespace Accessors

namespace Region

def newer (n : Nat) : Region := ⟨fun r => n ≤ r, fun _ => False, fun _ _ => False⟩

theorem within_scalar {R : Region} {v : Value} (bare : v.handle? = none) : R.within v := by
  cases v <;> trivial

end Region

namespace World

theorem held_of_size {w : World} {r : Ref} (h : w.objects.size ≤ r) : w.held r = [] := by
  unfold held
  rw [Array.getElem?_eq_none h]
  rfl

end World

namespace Region
variable {R : Region} {w w' : World}

theorem Evolves.sameOn (evolves : R.Evolves w w') {S : Ref → Prop}
    (closed : ∀ r, S r → ∀ v ∈ w.held r, v.On S) (outside : ∀ r, S r → ¬ R.inside r) :
    World.SameOn S w w' :=
  .of_objects closed evolves.typeId fun r h plain => evolves.others r (outside r h) plain

end Region

namespace World

/-- New objects were made and nothing was changed. -/
def Grows (w w' : World) : Prop :=
  (Region.newer w.objects.size).Evolves w w'

/-- No entity is in a value, however deep. -/
def EntityFree (w : World) (v : Value) : Prop :=
  ∀ u, w.Contains v u → u.isEntity = false

theorem EntityFree.scalar {w : World} {v : Value} (bare : v.handle? = none) : w.EntityFree v := by
  intro u contains
  rw [contains.of_bare bare]
  cases v <;> first | rfl | cases bare

theorem EntityFree.of_held {w : World} {v : Value} (plain : v.isEntity = false)
    (inner : ∀ r, v.handle? = some r → ∀ item ∈ w.held r, w.EntityFree item) : w.EntityFree v := by
  intro u contains
  cases contains with
  | self _ => exact plain
  | inside handle held rest => exact inner _ handle _ held u rest

theorem EntityFree.inside {w : World} {v item : Value} {r : Ref} (free : w.EntityFree v)
    (handle : v.handle? = some r) (held : item ∈ w.held r) : w.EntityFree item :=
  fun u contains => free u (.inside handle held contains)

namespace Grows
variable {w w₁ w₂ : World}

theorem refl (w : World) : w.Grows w := Region.Evolves.refl w

theorem trans (first : w.Grows w₁) (second : w₁.Grows w₂) : w.Grows w₂ where
  scene := by rw [second.scene, first.scene]
  size := Nat.le_trans first.size second.size
  typeId r := (second.typeId r).trans (first.typeId r)
  slots r key h := (second.slots r key h).trans (first.slots r key h)
  others r h plain := by
    have older : ¬ w₁.objects.size ≤ r := fun le => h (Nat.le_trans first.size le)
    exact (second.others r older ((first.typeId r).trans plain)).trans (first.others r h plain)

theorem push (w : World) {o : Object} (plain : o.inst? = none) : w.Grows (w.push o) where
  scene := rfl
  size := by simp [World.push]
  typeId s := typeId?_of_instance (instance?_push plain s)
  slots s key _ := slot?_of_instance (instance?_push plain s) key
  others s older _ := by
    rw [getElem?_push, if_neg]
    rintro rfl
    exact older (Nat.le_refl _)

theorem evolves {R : Region} (grows : w.Grows w₁) (sealed : R.Sealed w) : R.Evolves w w₁ :=
  grows.mono sealed.fresh fun _ _ never => never.elim

theorem sameOn {n : Nat} {v : Value} (grows : w.Grows w₁) (h : w.Fathoms n v) :
    SameOn (w.Reaches v) w w₁ :=
  Region.Evolves.sameOn grows (fun _ reaches _ held _ next => reaches.step held next)
    fun _ reaches new => absurd (h.lt reaches) (Nat.not_lt.mpr new)

theorem fathoms {n : Nat} {v : Value} (grows : w.Grows w₁) (h : w.Fathoms n v) :
    w₁.Fathoms n v :=
  (grows.sameOn h).fathoms grows.size (fun _ => .start) h

theorem shape {n : Nat} {v : Value} (grows : w.Grows w₁) (h : w.Fathoms n v) (levels : Nat) :
    w₁.shape levels v = w.shape levels v :=
  (grows.sameOn h).shape (fun _ => .start) levels

end Grows

end World

def Region.Builds {α : Type} (R : Region) (Q : World → α → Prop) (w : World) : Ending α → Prop
  | .ok v w' => w.Grows w' ∧ R.Sealed w' ∧ Q w' v
  | .error _ _ => False

namespace Region.Builds
variable {α β : Type} {R : Region} {P : World → α → Prop} {Q : World → β → Prop} {w : World}

theorem ok {e : Ending α} (h : R.Builds P w e) :
    ∃ v w', e = .ok v w' ∧ w.Grows w' ∧ R.Sealed w' ∧ P w' v := by
  cases e with
  | ok v w' => exact ⟨v, w', rfl, h⟩
  | error stop w' => exact h.elim

theorem kept {S : α → Prop} {e : Ending α} (h : R.Builds P w e) (sealed : R.Sealed w)
    (value : ∀ w' v, P w' v → S v) : R.Kept S w e := by
  obtain ⟨v, w', rfl, grows, sealed', hv⟩ := h.ok
  exact ⟨grows.evolves sealed, sealed', value w' v hv⟩

theorem imp {P' : World → α → Prop} {e : Ending α} (h : R.Builds P w e)
    (weaker : ∀ w' v, P w' v → P' w' v) : R.Builds P' w e := by
  obtain ⟨v, w', rfl, grows, sealed, hv⟩ := h.ok
  exact ⟨grows, sealed, weaker w' v hv⟩

theorem pure {v : α} (sealed : R.Sealed w) (h : P w v) : R.Builds P w ((Pure.pure v : Action α).run w) :=
  ⟨.refl w, sealed, h⟩

theorem bind {a : Action α} {k : α → Action β} (ha : R.Builds P w (a.run w))
    (hk : ∀ v w', w.Grows w' → R.Sealed w' → P w' v → R.Builds Q w' ((k v).run w')) :
    R.Builds Q w ((a >>= k).run w) := by
  obtain ⟨v, w', result, grows, sealed, hv⟩ := ha.ok
  obtain ⟨u, w'', further, grows', sealed', hu⟩ := (hk v w' grows sealed hv).ok
  rw [EStateM.run_bind, result]
  dsimp only
  rw [further]
  exact ⟨grows.trans grows', sealed', hu⟩

theorem mapM {f : α → Action β} {Q : World → α → β → Prop} (w₀ : World)
    (keep : ∀ w w' x y, World.Grows w w' → Q w x y → Q w' x y) {xs : List α}
    (each : ∀ x ∈ xs, ∀ w, w₀.Grows w → R.Sealed w → R.Builds (Q · x) w ((f x).run w))
    (grows : w₀.Grows w) (sealed : R.Sealed w) :
    R.Builds (fun w' ys => List.Forall₂ (Q w') xs ys) w ((xs.mapM f).run w) := by
  induction xs generalizing w with
  | nil => exact pure sealed .nil
  | cons x xs ih =>
    rw [List.mapM_cons]
    refine (each x (by simp) w grows sealed).bind fun y w₁ grows₁ sealed₁ hy => ?_
    have rest := ih (fun x mem => each x (by simp [mem])) (grows.trans grows₁) sealed₁
    refine rest.bind fun ys w₂ grows₂ sealed₂ hys => ?_
    exact pure sealed₂ (.cons (keep w₁ w₂ x y grows₂ hy) hys)

end Region.Builds

namespace World

theorem sequence_push (w : World) (items : Array Value) :
    (w.push (.seq items)).sequence w.objects.size = items :=
  sequence_of (by rw [getElem?_push, if_pos rfl])

theorem fields_push (w : World) (fields : Table Value) :
    (w.push (.record fields)).fields w.objects.size = fields :=
  fields_of (by rw [getElem?_push, if_pos rfl])

theorem moment_push (w : World) (moment : Calendar.Moment) :
    (w.push (.date moment)).moment w.objects.size = moment := by
  unfold World.moment
  rw [getElem?_push, if_pos rfl]

theorem held_push (w : World) (o : Object) : (w.push o).held w.objects.size = o.held := by
  unfold held
  rw [getElem?_push, if_pos rfl]
  rfl

theorem lt_push (w : World) (o : Object) : w.objects.size < (w.push o).objects.size := by
  simp [push]

theorem shape_scalar {w w' : World} {v : Value} (bare : v.handle? = none) (n : Nat) :
    w'.shape n v = w.shape n v := by
  cases v <;> first | (cases bare; done) | (cases n <;> rfl)

/-- A value of one world that is a copy of a value of another one: of no more levels, alike,
and within a region. -/
structure Copied (R : Region) (levels : Nat) (w₀ : World) (v : Value) (w : World) (u : Value) :
    Prop where
  within : R.within u
  fathoms : w.Fathoms levels u
  shape : ∀ n, w.shape n u = w₀.shape n v

namespace Copied
variable {R : Region} {levels : Nat} {w₀ w w' : World} {v u : Value}

theorem grown (grows : w.Grows w') (h : Copied R levels w₀ v w u) : Copied R levels w₀ v w' u where
  within := h.within
  fathoms := grows.fathoms h.fathoms
  shape n := (grows.shape h.fathoms n).trans (h.shape n)

theorem scalar (bare : v.handle? = none) : Copied R levels w₀ v w v :=
  ⟨Region.within_scalar bare, .scalar bare, shape_scalar bare⟩

end Copied

end World

theorem exists_of_forall₂ {α β : Type} {Q : α → β → Prop} {xs : List α} {ys : List β}
    (h : List.Forall₂ Q xs ys) {y : β} (mem : y ∈ ys) : ∃ x ∈ xs, Q x y := by
  induction h with
  | nil => cases mem
  | cons here _ ih =>
    rcases List.mem_cons.mp mem with rfl | mem
    · exact ⟨_, List.mem_cons_self, here⟩
    · obtain ⟨x, found, hx⟩ := ih mem
      exact ⟨x, List.mem_cons_of_mem _ found, hx⟩

theorem map_eq_of_forall₂ {α β γ : Type} {f : α → γ} {g : β → γ} {xs : List α} {ys : List β}
    (h : List.Forall₂ (fun x y => g y = f x) xs ys) : ys.map g = xs.map f := by
  induction h with
  | nil => rfl
  | cons here _ ih => rw [List.map_cons, List.map_cons, here, ih]

namespace Region.Builds
variable {R : Region} {levels : Nat} {w₀ w : World}

theorem object {Q : World → Value → Prop} (sealed : R.Sealed w) {o : Object} (plain : o.inst? = none)
    (held : ∀ v ∈ o.held, R.within v) (make : Ref → Value)
    (value : Q (w.push o) (make w.objects.size)) :
    R.Builds Q w ((alloc o >>= fun r => Pure.pure (make r)).run w) :=
  ⟨.push w plain, sealed.push plain held, value⟩

theorem date (sealed : R.Sealed w) (r : Ref) (levels : Nat) :
    R.Builds (World.Copied R (levels + 1) w (.date r)) w ((newDate (w.moment r)).run w) := by
  refine object sealed rfl (by simp [Object.held]) .date ?_
  refine ⟨sealed.fresh _ (Nat.le_refl _), .object rfl (w.lt_push _) fun u held => ?_, fun n => ?_⟩
  · rw [World.held_push] at held
    cases held
  · cases n <;> exact congrArg Shape.date (w.moment_push _)

theorem sequence (sealed : R.Sealed w) {r : Ref} {items : List Value}
    (copies : List.Forall₂ (World.Copied R levels w₀ · w) (w₀.items r) items) :
    R.Builds (World.Copied R (levels + 1) w₀ (.seq r)) w ((newSeq items).run w) := by
  have grows : w.Grows (w.push (.seq items.toArray)) := .push w rfl
  refine object sealed rfl (fun u held => ?_) .seq
    ⟨sealed.fresh _ (Nat.le_refl _), .object rfl (w.lt_push _) fun u held => ?_, fun n => ?_⟩
  · obtain ⟨v, _, copied⟩ := exists_of_forall₂ copies (by simpa [Object.held] using held)
    exact copied.within
  · rw [World.held_push] at held
    obtain ⟨v, _, copied⟩ := exists_of_forall₂ copies (by simpa [Object.held] using held)
    exact (copied.grown grows).fathoms
  · cases n with
    | zero => rfl
    | succ n =>
      unfold World.shape World.items
      rw [World.sequence_push]
      exact congrArg Shape.seq
        (map_eq_of_forall₂ (copies.imp fun v u copied => (copied.grown grows).shape n))

theorem record (sealed : R.Sealed w) {r : Ref} {entries : List (String × Value)}
    (copies : List.Forall₂ (fun before after => after.1 = before.1 ∧
      World.Copied R levels w₀ before.2 w after.2) (w₀.fields r).entries entries) :
    R.Builds (World.Copied R (levels + 1) w₀ (.record r)) w
      ((newRecord (Table.ofList entries)).run w) := by
  have names : entries.map Prod.fst = (w₀.fields r).keys :=
    map_eq_of_forall₂ (copies.imp fun _ _ copied => copied.1)
  have table : (Table.ofList entries).entries = entries :=
    Table.entries_ofList (names ▸ (w₀.fields r).keys_nodup)
  have grows : w.Grows (w.push (.record (Table.ofList entries))) := .push w rfl
  have each : ∀ u ∈ (Table.ofList entries).values, ∃ v, World.Copied R levels w₀ v w u := by
    intro u mem
    obtain ⟨entry, given, rfl⟩ := Table.mem_values_ofList mem
    obtain ⟨before, _, copied⟩ := exists_of_forall₂ copies given
    exact ⟨before.2, copied.2⟩
  refine object sealed rfl (fun u held => ?_) .record
    ⟨sealed.fresh _ (Nat.le_refl _), .object rfl (w.lt_push _) fun u held => ?_, fun n => ?_⟩
  · obtain ⟨v, copied⟩ := each u held
    exact copied.within
  · rw [World.held_push] at held
    obtain ⟨v, copied⟩ := each u held
    exact (copied.grown grows).fathoms
  · cases n with
    | zero => rfl
    | succ n =>
      unfold World.shape
      rw [World.fields_push, table]
      refine congrArg Shape.record (map_eq_of_forall₂ (copies.imp fun before after copied => ?_))
      rw [copied.1, (copied.2.grown grows).shape n]

end Region.Builds

/-- A deep copy of a value is a copy, for as many levels as the value has. Entities are not copied,
so those in the value have to be in the region. -/
theorem deepCopyWithin_builds {R : Region} {w : World} {levels : Nat} {v : Value}
    (h : w.Fathoms levels v) (entities : ∀ r, w.Contains v (.entity r) → R.entity r)
    (sealed : R.Sealed w) :
    R.Builds (World.Copied R levels w v) w ((deepCopyWithin levels v).run w) := by
  induction levels generalizing v w with
  | zero =>
    cases h with
    | scalar bare =>
      unfold deepCopyWithin
      cases v with
      | seq r | record r | date r | entity r => cases bare
      | _ => exact .pure sealed (.scalar rfl)
  | succ levels ih =>
    -- an item is copied in a world that has grown by the copies before it
    have inside {item : Value} {r : Ref} (handle : v.handle? = some r) (held : item ∈ w.held r)
        {w' : World} (grows : w.Grows w') (sealed' : R.Sealed w') :
        R.Builds (World.Copied R levels w item) w' ((deepCopyWithin levels item).run w') := by
      have fathomed := h.inner handle item held
      have met (s : Ref) (contains : w'.Contains item (.entity s)) : R.entity s :=
        entities s (.inside handle held
          (((grows.sameOn fathomed).contains fun _ => .start).mp contains))
      refine (ih (grows.fathoms fathomed) met sealed').imp fun _ _ copied => ?_
      exact ⟨copied.within, copied.fathoms, fun n =>
        (copied.shape n).trans (grows.shape fathomed n)⟩
    unfold deepCopyWithin
    rw [EStateM.run_bind, EStateM.run_get]
    cases v with
    | seq r =>
      refine .bind (.mapM w (Q := fun w' x => World.Copied R levels w x w')
        (fun _ _ _ _ grows copied => copied.grown grows)
        (fun item mem w' grows sealed' => inside rfl (World.mem_held_of_items mem) grows sealed')
        (.refl w) sealed) fun items w' _ sealed' copies => ?_
      exact .sequence sealed' copies
    | record r =>
      refine .bind (.mapM w (Q := fun w' (before after : String × Value) =>
          after.1 = before.1 ∧ World.Copied R levels w before.2 w' after.2)
        (fun _ _ _ _ grows copied => ⟨copied.1, copied.2.grown grows⟩)
        (fun entry mem w' grows sealed' => ?_) (.refl w) sealed)
        fun entries w' _ sealed' copies => .record sealed' copies
      have held := World.mem_held_of_fields (List.mem_map_of_mem (f := Prod.snd) mem)
      exact .bind (inside rfl held grows sealed') fun _ _ _ sealed'' copied =>
        .pure sealed'' ⟨rfl, copied⟩
    | date r => exact .date sealed r levels
    | entity r => exact .pure sealed ⟨entities r (.self _), h, fun _ => rfl⟩
    | _ => exact .pure sealed (.scalar rfl)

theorem deepCopy_builds {R : Region} {w : World} {levels : Nat} {v : Value}
    (h : w.Fathoms levels v) (entities : ∀ r, w.Contains v (.entity r) → R.entity r)
    (sealed : R.Sealed w) :
    R.Builds (World.Copied R w.levels w v) w ((deepCopy v).run w) :=
  deepCopyWithin_builds h.levels entities sealed

def World.Separable (w : World) : Value → Prop
  | .seq r => ∀ item ∈ w.items r, item.handle? = none
  | v => w.EntityFree v

theorem ClonePolicy.apply_builds {R : Region} {w : World} {levels : Nat} {default : Value}
    {policy : ClonePolicy} (accepted : ofDefault default = .ok policy)
    (h : w.Fathoms levels default) (separable : w.Separable default) (sealed : R.Sealed w) :
    R.Builds (fun w' u => ∃ n, World.Copied R n w default w' u) w ((policy.apply default).run w) := by
  cases default with
  | seq r =>
    cases accepted
    have items : List.Forall₂ (World.Copied R 0 w · w) (w.items r) (w.items r) :=
      List.forall₂_same.mpr fun item mem => .scalar (separable item mem)
    exact (Region.Builds.sequence sealed items).imp fun _ _ copied => ⟨_, copied⟩
  | record r =>
    cases accepted
    have entities (s : Ref) (contains : w.Contains (.record r) (.entity s)) : R.entity s :=
      nomatch separable _ contains
    exact (deepCopy_builds h entities sealed).imp fun _ _ copied => ⟨_, copied⟩
  | date r | entity r => cases accepted
  | _ =>
    cases accepted
    exact .pure sealed ⟨0, .scalar rfl⟩

end Accessors
