import Accessors.Proofs.Grounded

/-! Paths into values. A path goes by position from a collection to one of the items or fields
that it holds; it ends at entities, which are not looked into. Paths depend on the objects met only,
and values of the same shape have the same paths with the same scalars and entities at their ends.
`Laid` says of a value that the objects it leads to are some of a stretch of objects, each along a
single path. -/

namespace Accessors

def Value.plainHandle? : Value → Option Ref
  | .seq r | .record r | .date r => some r
  | _ => none

theorem Value.handle?_of_plain {v : Value} {r : Ref} (plain : v.plainHandle? = some r) :
    v.handle? = some r ∧ v.isEntity = false := by
  cases v <;> cases plain <;> exact ⟨rfl, rfl⟩

namespace World

def children (w : World) : Value → List Value
  | .seq r => w.items r
  | .record r => (w.fields r).values
  | _ => []

def follow? (w : World) (v : Value) : List Nat → Option Value
  | [] => some v
  | i :: path => (w.children v)[i]?.bind fun item => w.follow? item path

def handleAt? (w : World) (v : Value) (path : List Nat) : Option Ref :=
  (w.follow? v path).bind Value.plainHandle?

def handleAmong? (w : World) (vs : List Value) : List Nat → Option Ref
  | [] => none
  | i :: path => vs[i]?.bind fun v => w.handleAt? v path

theorem handleAmong?_cons (w : World) (vs : List Value) (i : Nat) (path : List Nat) :
    w.handleAmong? vs (i :: path) = vs[i]?.bind fun v => w.handleAt? v path :=
  rfl

theorem handleAt?_cons (w : World) (v : Value) (i : Nat) (path : List Nat) :
    w.handleAt? v (i :: path) = w.handleAmong? (w.children v) (i :: path) := by
  rw [handleAmong?_cons]
  exact Option.bind_assoc _ _ _

section
variable {w : World} {v : Value}

theorem exists_handle_of_child {item : Value} (mem : item ∈ w.children v) :
    ∃ r, v.handle? = some r ∧ item ∈ w.held r := by
  cases v with
  | seq r => exact ⟨r, rfl, mem_held_of_items mem⟩
  | record r => exact ⟨r, rfl, mem_held_of_fields mem⟩
  | _ => cases mem

theorem contains_of_child {item : Value} (mem : item ∈ w.children v) : w.Contains v item := by
  obtain ⟨r, handle, held⟩ := exists_handle_of_child mem
  exact .inside handle held (.self item)

theorem contains_of_follow? {u : Value} {path : List Nat} (led : w.follow? v path = some u) :
    w.Contains v u := by
  induction path generalizing v with
  | nil =>
    cases led
    exact .self _
  | cons i path ih =>
    obtain ⟨item, found, rest⟩ := Option.bind_eq_some_iff.mp led
    exact (contains_of_child (List.mem_of_getElem? found)).trans (ih rest)

theorem reaches_of_handleAt? {path : List Nat} {s : Ref} (led : w.handleAt? v path = some s) :
    w.Reaches v s := by
  obtain ⟨u, found, plain⟩ := Option.bind_eq_some_iff.mp led
  exact ⟨u, contains_of_follow? found, (Value.handle?_of_plain plain).1⟩

end

namespace SameOn
variable {S : Ref → Prop} {w w' : World} (same : SameOn S w w')
include same

theorem children {v : Value} (on : v.On S) : w'.children v = w.children v := by
  cases v with
  | seq r => exact congrArg Array.toList (same.sequence r (on r rfl))
  | record r => exact congrArg Table.values (same.fields r (on r rfl))
  | _ => rfl

theorem child_on {v item : Value} (on : v.On S) (mem : item ∈ w.children v) : item.On S := by
  obtain ⟨r, handle, held⟩ := exists_handle_of_child mem
  exact same.closed r (on r handle) item held

theorem follow? {v : Value} (on : v.On S) (path : List Nat) :
    w'.follow? v path = w.follow? v path := by
  induction path generalizing v with
  | nil => rfl
  | cons i path ih =>
    unfold World.follow?
    rw [same.children on]
    cases found : (w.children v)[i]? with
    | none => rfl
    | some item => exact ih (same.child_on on (List.mem_of_getElem? found))

theorem handleAt? {v : Value} (on : v.On S) : w'.handleAt? v = w.handleAt? v := by
  funext path
  unfold World.handleAt?
  rw [same.follow? on]

end SameOn

def NaNFree (w : World) (v : Value) : Prop :=
  ∀ path x, w.follow? v path = some (.number x) → x.isNaN = false

theorem nanFree_iff {w : World} {v : Value} :
    w.NaNFree v ↔
      (∀ x, v = .number x → x.isNaN = false) ∧ ∀ item ∈ w.children v, w.NaNFree item := by
  constructor
  · refine fun free => ⟨fun x eq => free [] x (congrArg some eq), fun item mem path x led => ?_⟩
    obtain ⟨i, found⟩ := List.mem_iff_getElem?.mp mem
    refine free (i :: path) x ?_
    unfold follow?
    rw [found]
    exact led
  · rintro ⟨here, below⟩ path x led
    cases path with
    | nil => exact here x (Option.some.inj led)
    | cons i path =>
      obtain ⟨item, found, rest⟩ := Option.bind_eq_some_iff.mp led
      exact below item (List.mem_of_getElem? found) path x rest

def SameShape (w w' : World) (v v' : Value) : Prop :=
  ∀ levels, w'.shape levels v' = w.shape levels v

namespace SameShape
variable {w w' : World} {v v' : Value}

theorem symm (same : SameShape w w' v v') : SameShape w' w v' v :=
  fun levels => (same levels).symm

theorem eq_of_not_plain (same : SameShape w w' v v') (bare : v.plainHandle? = none) : v' = v := by
  have shape := same 0
  cases v <;> cases bare <;> cases v' <;> cases shape <;> rfl

theorem exists_seq {r : Ref} (same : SameShape w w' (.seq r) v') : ∃ r', v' = .seq r' := by
  have shape := same 1
  cases v' <;> first | exact ⟨_, rfl⟩ | cases shape

theorem exists_record {r : Ref} (same : SameShape w w' (.record r) v') : ∃ r', v' = .record r' := by
  have shape := same 1
  cases v' <;> first | exact ⟨_, rfl⟩ | cases shape

theorem of_map {vs vs' : List Value}
    (same : ∀ levels, vs'.map (w'.shape levels) = vs.map (w.shape levels)) :
    List.Forall₂ (SameShape w w') vs vs' :=
  (forall₂_of_map_eq (P := fun _ => True) (Q := fun _ => True) (fun _ _ => trivial)
    (fun _ _ => trivial) same).imp fun _ _ both => both.2.2

theorem of_seq {r r' : Ref} (same : SameShape w w' (.seq r) (.seq r')) :
    List.Forall₂ (SameShape w w') (w.items r) (w'.items r') :=
  of_map fun levels => Shape.seq.inj (same (levels + 1))

theorem of_record {r r' : Ref} (same : SameShape w w' (.record r) (.record r')) :
    (w'.fields r').keys = (w.fields r).keys ∧
      List.Forall₂ (SameShape w w') (w.fields r).values (w'.fields r').values := by
  have entries (levels : Nat) := Shape.record.inj (same (levels + 1))
  refine ⟨?_, of_map fun levels => ?_⟩
  · have keys := congrArg (List.map Prod.fst) (entries 0)
    rw [List.map_map, List.map_map] at keys
    exact keys
  · have values := congrArg (List.map Prod.snd) (entries levels)
    rw [List.map_map, List.map_map] at values
    unfold Table.values
    rw [List.map_map, List.map_map]
    exact values

theorem children (same : SameShape w w' v v') :
    List.Forall₂ (SameShape w w') (w.children v) (w'.children v') := by
  cases v with
  | seq r =>
    obtain ⟨r', rfl⟩ := same.exists_seq
    exact same.of_seq
  | record r =>
    obtain ⟨r', rfl⟩ := same.exists_record
    exact same.of_record.2
  | date r =>
    have shape := same 0
    cases v' with
    | date r' => exact .nil
    | _ => cases shape
  | _ =>
    rw [same.eq_of_not_plain rfl]
    exact .nil

theorem follow? (same : SameShape w w' v v') {path : List Nat} {u : Value}
    (led : w.follow? v path = some u) :
    ∃ u', w'.follow? v' path = some u' ∧ SameShape w w' u u' := by
  induction path generalizing v v' with
  | nil =>
    cases led
    exact ⟨v', rfl, same⟩
  | cons i path ih =>
    obtain ⟨item, found, rest⟩ := Option.bind_eq_some_iff.mp led
    obtain ⟨lengths, each⟩ := List.forall₂_iff_get.mp same.children
    obtain ⟨lt, rfl⟩ := List.getElem?_eq_some_iff.mp found
    obtain ⟨u', further, alike⟩ := ih (each i lt (lengths ▸ lt)) rest
    refine ⟨u', ?_, alike⟩
    unfold World.follow?
    rw [List.getElem?_eq_getElem (lengths ▸ lt)]
    exact further

theorem follow?_iff (same : SameShape w w' v v') {path : List Nat} {u : Value}
    (bare : u.plainHandle? = none) :
    w'.follow? v' path = some u ↔ w.follow? v path = some u := by
  constructor
  · intro led
    obtain ⟨u', led', alike⟩ := same.symm.follow? led
    rw [led', alike.eq_of_not_plain bare]
  · intro led
    obtain ⟨u', led', alike⟩ := same.follow? led
    rw [led', alike.eq_of_not_plain bare]

end SameShape

end World

/-- Every path that leads to an object leads to one from `lo` up to `hi`, and no other path leads
to that one. -/
structure Laid (find : List Nat → Option Nat) (lo hi : Nat) : Prop where
  le : lo ≤ hi
  range : ∀ path s, find path = some s → lo ≤ s ∧ s < hi
  once : ∀ path path' s, find path = some s → find path' = some s → path = path'

namespace Laid
variable {w : World} {v : Value} {vs : List Value} {lo mid hi : Nat}

theorem of_none {find : List Nat → Option Nat} (n : Nat) (none : ∀ path, find path = none) :
    Laid find n n where
  le := Nat.le_refl n
  range path s led := by
    rw [none] at led
    cases led
  once path _ s led := by
    rw [none] at led
    cases led

theorem nil (n : Nat) : Laid (w.handleAmong? []) n n :=
  of_none n fun path => by cases path <;> rfl

theorem bare (n : Nat) (bare : v.plainHandle? = none) : Laid (w.handleAt? v) n n := by
  refine of_none n fun path => ?_
  cases path with
  | nil => exact bare
  | cons i path =>
    rw [World.handleAt?_cons]
    cases v <;> first | rfl | cases bare

theorem cons (first : Laid (w.handleAt? v) lo mid) (rest : Laid (w.handleAmong? vs) mid hi) :
    Laid (w.handleAmong? (v :: vs)) lo hi where
  le := Nat.le_trans first.le rest.le
  range path s led := by
    have le := first.le
    have le' := rest.le
    match path with
    | 0 :: path =>
      have within := first.range path s led
      omega
    | (i + 1) :: path =>
      have within := rest.range (i :: path) s led
      omega
  once path path' s led led' := by
    match path, path' with
    | 0 :: path, 0 :: path' => exact congrArg (0 :: ·) (first.once path path' s led led')
    | (i + 1) :: path, (j + 1) :: path' =>
      cases rest.once (i :: path) (j :: path') s led led'
      rfl
    -- An object of the first value is below `mid`, one of the others is not.
    | 0 :: path, (j + 1) :: path' =>
      have before := first.range path s led
      have after := rest.range (j :: path') s led'
      omega
    | (i + 1) :: path, 0 :: path' =>
      have before := first.range path' s led'
      have after := rest.range (i :: path) s led
      omega

theorem above (inner : Laid (w.handleAmong? (w.children v)) lo hi)
    (plain : v.plainHandle? = some hi) : Laid (w.handleAt? v) lo (hi + 1) where
  le := Nat.le_succ_of_le inner.le
  range path s led := by
    have le := inner.le
    cases path with
    | nil =>
      cases plain.symm.trans led
      omega
    | cons i path =>
      rw [World.handleAt?_cons] at led
      have within := inner.range (i :: path) s led
      omega
  once path path' s led led' := by
    cases path with
    | nil =>
      cases plain.symm.trans led
      cases path' with
      | nil => rfl
      | cons j path' =>
        rw [World.handleAt?_cons] at led'
        have within := inner.range (j :: path') hi led'
        omega
    | cons i path =>
      rw [World.handleAt?_cons] at led
      cases path' with
      | nil =>
        cases plain.symm.trans led'
        have within := inner.range (i :: path) hi led
        omega
      | cons j path' =>
        rw [World.handleAt?_cons] at led'
        exact inner.once _ _ s led led'

end Laid

end Accessors
