import Accessors.Proofs.Region

/-! What a value looks like, without its handles. The shape of a value unfolds its
collections some levels down, so that values of different worlds can be compared. It depends
only on the objects that the value leads to, and a value that does not contain itself is
followed to its ends within as many levels as there are objects. -/

namespace Accessors

def Value.handle? : Value → Option Ref
  | .seq r | .record r | .date r | .entity r => some r
  | _ => none

def Value.On (S : Ref → Prop) (v : Value) : Prop :=
  ∀ r, v.handle? = some r → S r

inductive Shape where
  | undefined
  | null
  | bool (b : Bool)
  | number (n : Float)
  | str (s : String)
  | date (moment : Calendar.Moment)
  | entity (r : Ref)
  | seq (items : List Shape)
  | record (entries : List (String × Shape))
  | deeper

namespace World

def shape (w : World) (levels : Nat) (v : Value) : Shape :=
  match v with
  | .undefined => .undefined
  | .null => .null
  | .bool b => .bool b
  | .number n => .number n
  | .str s => .str s
  | .date r => .date (w.moment r)
  | .entity r => .entity r
  | .seq r =>
    match levels with
    | 0 => .deeper
    | levels + 1 => .seq ((w.items r).map fun item => w.shape levels item)
  | .record r =>
    match levels with
    | 0 => .deeper
    | levels + 1 =>
      .record ((w.fields r).entries.map fun entry => (entry.1, w.shape levels entry.2))

/-- A value contains itself, and what any object that it is a handle of holds. -/
inductive Contains (w : World) : Value → Value → Prop
  | self (v : Value) : Contains w v v
  | inside {v item u : Value} {r : Ref} (handle : v.handle? = some r) (held : item ∈ w.held r)
      (rest : Contains w item u) : Contains w v u

def Reaches (w : World) (v : Value) (s : Ref) : Prop :=
  ∃ u, w.Contains v u ∧ u.handle? = some s

/-- A value is followed to its ends in some number of levels, meeting objects that exist. -/
inductive Fathoms (w : World) : Nat → Value → Prop
  | scalar {n : Nat} {v : Value} (bare : v.handle? = none) : Fathoms w n v
  | object {n : Nat} {v : Value} {r : Ref} (handle : v.handle? = some r)
      (lt : r < w.objects.size) (inner : ∀ u ∈ w.held r, Fathoms w n u) : Fathoms w (n + 1) v

/-- Two worlds with the same collections and dates at some objects, which lead only to
objects among them. -/
structure SameOn (S : Ref → Prop) (w w' : World) : Prop where
  closed : ∀ r, S r → ∀ v ∈ w.held r, v.On S
  sequence : ∀ r, S r → w'.sequence r = w.sequence r
  fields : ∀ r, S r → w'.fields r = w.fields r
  moment : ∀ r, S r → w'.moment r = w.moment r

theorem mem_held {w : World} {r : Ref} {v : Value} :
    v ∈ w.held r ↔ v ∈ w.items r ∨ v ∈ (w.fields r).values := by
  refine ⟨fun h => ?_, fun h => h.elim mem_held_of_items mem_held_of_fields⟩
  unfold held at h
  unfold items sequence fields
  cases found : w.objects[r]? with
  | none => simp [found] at h
  | some o =>
    rw [found] at h
    cases o with
    | seq _ => exact .inl h
    | record _ => exact .inr h
    | date _ | entity _ => cases h

namespace Contains
variable {w : World} {v u : Value}

theorem trans {x : Value} (first : w.Contains v u) (second : w.Contains u x) :
    w.Contains v x := by
  induction first with
  | self _ => exact second
  | inside handle held _ ih => exact .inside handle held (ih second)

theorem step {item : Value} {s : Ref} (first : w.Contains v u) (handle : u.handle? = some s)
    (held : item ∈ w.held s) : w.Contains v item :=
  first.trans (.inside handle held (.self item))

theorem of_bare (bare : v.handle? = none) (h : w.Contains v u) : u = v := by
  cases h with
  | self _ => rfl
  | inside handle _ _ =>
    rw [bare] at handle
    cases handle

theorem within {P : Value → Prop}
    (closed : ∀ v, P v → ∀ r, v.handle? = some r → ∀ item ∈ w.held r, P item)
    (h : w.Contains v u) (start : P v) : P u := by
  induction h with
  | self _ => exact start
  | inside handle held _ ih => exact ih (closed _ start _ handle _ held)

end Contains

namespace Reaches
variable {w : World} {v : Value}

theorem start {r : Ref} (handle : v.handle? = some r) : w.Reaches v r :=
  ⟨v, .self v, handle⟩

theorem step {s t : Ref} (h : w.Reaches v s) {item : Value} (held : item ∈ w.held s)
    (next : item.handle? = some t) : w.Reaches v t := by
  obtain ⟨u, contains, handle⟩ := h
  exact ⟨item, contains.step handle held, next⟩

theorem inside {r s : Ref} (handle : v.handle? = some r) {item : Value} (held : item ∈ w.held r)
    (h : w.Reaches item s) : w.Reaches v s := by
  obtain ⟨u, contains, next⟩ := h
  exact ⟨u, .inside handle held contains, next⟩

theorem not_of_bare (bare : v.handle? = none) (s : Ref) : ¬ w.Reaches v s := by
  rintro ⟨u, contains, handle⟩
  rw [contains.of_bare bare, bare] at handle
  cases handle

end Reaches

namespace SameOn
variable {S : Ref → Prop} {w w' : World}

theorem of_objects (closed : ∀ r, S r → ∀ v ∈ w.held r, v.On S)
    (typeId : ∀ r, w'.typeId? r = w.typeId? r)
    (objects : ∀ r, S r → w.typeId? r = none → w'.objects[r]? = w.objects[r]?) :
    SameOn S w w' := by
  have same (r : Ref) (h : S r) := object_or_entity (typeId r) (objects r h)
  refine ⟨closed, fun r h => ?_, fun r h => ?_, fun r h => ?_⟩
  · unfold World.sequence
    rcases same r h with eq | ⟨i, j, before, after⟩
    · rw [eq]
    · rw [before, after]
  · unfold World.fields
    rcases same r h with eq | ⟨i, j, before, after⟩
    · rw [eq]
    · rw [before, after]
  · unfold World.moment
    rcases same r h with eq | ⟨i, j, before, after⟩
    · rw [eq]
    · rw [before, after]

theorem setSlot (w : World) (r : Ref) (key : StorageKey) (v : Value) :
    SameOn (fun _ => True) w (w.after (Accessors.setSlot r key v)) :=
  .of_objects (fun _ _ _ _ _ _ => trivial) (w.typeId?_setSlot r key v)
    fun _ _ plain => getElem?_setSlot plain r key v

variable (same : SameOn S w w')
include same

theorem held {r : Ref} (h : S r) {v : Value} : v ∈ w'.held r ↔ v ∈ w.held r := by
  unfold World.held
  rw [← World.held, ← World.held, mem_held, mem_held, World.items, World.items, same.sequence r h,
    same.fields r h]

theorem contains {v u : Value} (on : v.On S) : w'.Contains v u ↔ w.Contains v u := by
  constructor
  · intro h
    refine (h.within (P := fun x => w.Contains v x ∧ x.On S) ?_ ⟨.self v, on⟩).1
    rintro x ⟨before, here⟩ r handle item held
    rw [same.held (here r handle)] at held
    exact ⟨before.step handle held, same.closed r (here r handle) item held⟩
  · intro h
    refine (h.within (P := fun x => w'.Contains v x ∧ x.On S) ?_ ⟨.self v, on⟩).1
    rintro x ⟨after, here⟩ r handle item held
    have still := (same.held (here r handle)).mpr held
    exact ⟨after.step handle still, same.closed r (here r handle) item held⟩

theorem reaches {v : Value} (on : v.On S) {s : Ref} : w'.Reaches v s ↔ w.Reaches v s := by
  unfold Reaches
  simp only [same.contains on]

theorem shape {v : Value} (on : v.On S) (levels : Nat) : w'.shape levels v = w.shape levels v := by
  induction levels generalizing v with
  | zero =>
    cases v with
    | date r => simp only [World.shape, same.moment r (on r rfl)]
    | _ => rfl
  | succ levels ih =>
    cases v with
    | date r => simp only [World.shape, same.moment r (on r rfl)]
    | seq r =>
      have here := on r rfl
      simp only [World.shape, World.items, same.sequence r here]
      refine congrArg Shape.seq (List.map_congr_left fun item mem => ih ?_)
      exact same.closed r here item (mem_held_of_items mem)
    | record r =>
      have here := on r rfl
      simp only [World.shape, same.fields r here]
      refine congrArg Shape.record (List.map_congr_left fun entry mem => ?_)
      rw [ih (same.closed r here entry.2 (mem_held_of_fields (List.mem_map_of_mem mem)))]
    | _ => rfl

theorem fathoms (grown : w.objects.size ≤ w'.objects.size) {n : Nat} {v : Value} (on : v.On S)
    (h : w.Fathoms n v) : w'.Fathoms n v := by
  induction h with
  | scalar bare => exact .scalar bare
  | object handle lt _ ih =>
    have here := on _ handle
    refine .object handle (Nat.lt_of_lt_of_le lt grown) fun u mem => ?_
    rw [same.held here] at mem
    exact ih u mem (same.closed _ here u mem)

end SameOn

namespace Fathoms
variable {w : World} {n : Nat} {v : Value}

theorem inner {r : Ref} (h : w.Fathoms (n + 1) v) (handle : v.handle? = some r) :
    ∀ u ∈ w.held r, w.Fathoms n u := by
  cases h with
  | scalar bare => rw [bare] at handle; cases handle
  | object other _ inner =>
    rw [other] at handle
    cases handle
    exact inner

theorem along {u : Value} (h : w.Fathoms n v) (contains : w.Contains v u) :
    ∃ k ≤ n, w.Fathoms k u := by
  induction contains generalizing n with
  | self v => exact ⟨n, Nat.le_refl n, h⟩
  | inside handle held _ ih =>
    cases n with
    | zero =>
      cases h with
      | scalar bare => rw [bare] at handle; cases handle
    | succ n =>
      obtain ⟨k, le, fathomed⟩ := ih (h.inner handle _ held)
      exact ⟨k, by omega, fathomed⟩

theorem lt {s : Ref} (h : w.Fathoms n v) (reaches : w.Reaches v s) : s < w.objects.size := by
  obtain ⟨u, contains, handle⟩ := reaches
  obtain ⟨k, _, fathomed⟩ := h.along contains
  cases fathomed with
  | scalar bare => rw [bare] at handle; cases handle
  | object other lt _ =>
    rw [other] at handle
    cases handle
    exact lt

theorem acyclic {r : Ref} {item : Value} (h : w.Fathoms n v) (handle : v.handle? = some r)
    (held : item ∈ w.held r) : ¬ w.Reaches item r := by
  induction n using Nat.strongRecOn generalizing v with
  | ind n ih =>
    rintro ⟨u, contains, next⟩
    cases n with
    | zero =>
      cases h with
      | scalar bare => rw [bare] at handle; cases handle
    | succ n =>
      obtain ⟨k, le, fathomed⟩ := (h.inner handle item held).along contains
      exact ih k (by omega) fathomed next ⟨u, contains, next⟩

theorem of_available (h : w.Fathoms n v) (available : List Ref)
    (met : ∀ s, w.Reaches v s → s ∈ available) : w.Fathoms available.length v := by
  induction h generalizing available with
  | scalar bare => exact .scalar bare
  | @object n v r handle lt inner ih =>
    have here : r ∈ available := met r (.start handle)
    have whole : w.Fathoms (n + 1) v := .object handle lt inner
    obtain ⟨k, size⟩ : ∃ k, available.length = k + 1 :=
      ⟨available.length - 1, by have := List.length_pos_of_mem here; omega⟩
    rw [size]
    refine .object handle lt fun u held => ?_
    have rest := ih u held (available.erase r) fun s reaches => ?_
    · rw [List.length_erase_of_mem here, size] at rest
      exact rest
    · have other : s ≠ r := by
        rintro rfl
        exact whole.acyclic handle held reaches
      exact (List.mem_erase_of_ne other).mpr (met s (reaches.inside handle held))

theorem levels (h : w.Fathoms n v) : w.Fathoms w.levels v := by
  have bounded := h.of_available (List.range w.objects.size) fun s reaches =>
    List.mem_range.mpr (h.lt reaches)
  rw [List.length_range] at bounded
  exact bounded

end Fathoms

end World

end Accessors
