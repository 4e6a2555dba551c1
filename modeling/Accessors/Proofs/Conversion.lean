import Accessors.Proofs.Copies

/-! What a value converts to depends on what it contains only: changes elsewhere show neither
in its text nor in its number, and a native value that is constructed from it later looks as
one that was constructed before. -/

namespace Accessors

def Region.Outside (R : Region) (w : World) (v : Value) : Prop :=
  ∀ s, w.Reaches v s → ¬ R.inside s

/-- The value can be followed to its ends. -/
def World.Finite (w : World) (v : Value) : Prop :=
  ∃ n, w.Fathoms n v

namespace World.SameOn
variable {S : Ref → Prop} {w w' : World} (same : SameOn S w w')
include same

theorem displayWithin (types : ∀ r, w'.typeOf r = w.typeOf r) {n : Nat} {v : Value}
    (h : w.Fathoms n v) (on : v.On S) {k k' : Nat} (enough : n ≤ k) (enough' : n ≤ k') :
    w'.displayWithin k' v = w.displayWithin k v := by
  induction h generalizing k k' with
  | @scalar _ v bare =>
    cases v with
    | seq r | record r | date r | entity r => cases bare
    | _ =>
      unfold World.displayWithin
      rfl
  | @object n v r handle lt inner ih =>
    have here := on r handle
    obtain ⟨j, rfl⟩ : ∃ j, k = j + 1 := ⟨k - 1, by omega⟩
    obtain ⟨j', rfl⟩ : ∃ j', k' = j' + 1 := ⟨k' - 1, by omega⟩
    cases v with
    | seq r =>
      obtain rfl := Option.some.inj handle
      unfold World.displayWithin World.items
      rw [same.sequence r here]
      refine congrArg (",".intercalate ·) (List.map_congr_left fun item mem => ?_)
      have held := mem_held_of_items mem
      have deeper := ih item held (same.closed r here item held)
        (Nat.le_of_succ_le_succ enough) (Nat.le_of_succ_le_succ enough')
      rw [deeper]
    | date r =>
      obtain rfl := Option.some.inj handle
      unfold World.displayWithin
      rw [same.moment r here]
    | entity r =>
      unfold World.displayWithin
      rw [types]
    | _ => rfl

theorem toNumberWithin {n : Nat} {v : Value} (h : w.Fathoms n v) (on : v.On S) {k k' : Nat}
    (enough : n ≤ k) (enough' : n ≤ k') : w'.toNumberWithin k' v = w.toNumberWithin k v := by
  induction h generalizing k k' with
  | @scalar _ v bare =>
    cases v with
    | seq r | record r | date r | entity r => cases bare
    | _ =>
      unfold World.toNumberWithin
      rfl
  | @object n v r handle lt inner ih =>
    have here := on r handle
    obtain ⟨j, rfl⟩ : ∃ j, k = j + 1 := ⟨k - 1, by omega⟩
    obtain ⟨j', rfl⟩ : ∃ j', k' = j' + 1 := ⟨k' - 1, by omega⟩
    cases v with
    | seq r =>
      cases handle
      simp only [World.toNumberWithin, same.sequence r here]
      split
      · rfl
      · rename_i first found
        have mem : first ∈ w.items r := Array.mem_toList_iff.mpr (Array.mem_of_getElem? found)
        have held := mem_held_of_items mem
        have deeper := ih first held (same.closed r here first held)
          (Nat.le_of_succ_le_succ enough) (Nat.le_of_succ_le_succ enough')
        rw [deeper]
    | date r =>
      cases handle
      simp only [World.toNumberWithin, same.moment r here]
    | _ => rfl

end World.SameOn

theorem World.SameOn.refl (w : World) : SameOn (fun _ => True) w w where
  closed _ _ _ _ _ _ := trivial
  sequence _ _ := rfl
  fields _ _ := rfl
  moment _ _ := rfl

theorem World.Finite.displayWithin {w : World} {v : Value} (finite : w.Finite v) {k : Nat}
    (enough : w.levels ≤ k) : w.displayWithin k v = w.display v := by
  obtain ⟨n, fathomed⟩ := finite
  exact (SameOn.refl w).displayWithin (fun _ => rfl) fathomed.levels (fun _ _ => trivial)
    (Nat.le_refl _) enough

namespace Region.Evolves
variable {R : Region} {w w' : World} (evolves : R.Evolves w w')
include evolves

theorem typeOf (r : Ref) : w'.typeOf r = w.typeOf r := by
  unfold World.typeOf
  rw [evolves.typeId, evolves.types]

theorem same {v : Value} (outside : R.Outside w v) : World.SameOn (w.Reaches v) w w' :=
  evolves.sameOn (fun _ reaches _ held _ next => reaches.step held next) outside

theorem finite {v : Value} (outside : R.Outside w v) (h : w.Finite v) : w'.Finite v :=
  h.imp fun _ fathomed =>
    (evolves.same outside).fathoms evolves.size (fun _ => .start) fathomed

theorem display {v : Value} (outside : R.Outside w v) (h : w.Finite v) :
    w'.display v = w.display v := by
  obtain ⟨n, fathomed⟩ := h
  exact (evolves.same outside).displayWithin evolves.typeOf fathomed.levels (fun _ => .start)
    (Nat.le_refl _) evolves.size

theorem toNumber {v : Value} (outside : R.Outside w v) (h : w.Finite v) :
    w'.toNumber v = w.toNumber v := by
  obtain ⟨n, fathomed⟩ := h
  exact (evolves.same outside).toNumberWithin fathomed.levels (fun _ => .start)
    (Nat.le_refl _) evolves.size

theorem leadingInteger {v : Value} (outside : R.Outside w v) (h : w.Finite v) :
    w'.leadingInteger v = w.leadingInteger v := by
  unfold World.leadingInteger
  split
  · rfl
  · rw [evolves.display outside h]

theorem arrayItems {args : List Value} (outside : ∀ v ∈ args, R.Outside w v) :
    w'.arrayItems args = w.arrayItems args := by
  unfold World.arrayItems
  split
  · rfl
  · rename_i r
    have out := outside (.seq r) (by simp)
    unfold World.items
    rw [(evolves.same out).sequence r (.start rfl)]
  · rename_i r
    have out := outside (.record r) (by simp)
    rw [(evolves.same out).fields r (.start rfl)]
  · rfl

theorem momentOf {args : List Value} (outside : ∀ v ∈ args, R.Outside w v)
    (h : ∀ v ∈ args, w.Finite v) : w'.momentOf args = w.momentOf args := by
  unfold World.momentOf
  split
  · rw [evolves.scene]
  · rename_i r
    have out := outside (.date r) (by simp)
    rw [(evolves.same out).moment r (.start rfl)]
  · rfl
  · rename_i single _ _
    have out := outside single (by simp)
    have finite := h single (by simp)
    rw [evolves.display out finite, evolves.toNumber out finite]
  · have numbers : args.map w'.toNumber = args.map w.toNumber :=
      List.map_congr_left fun v mem => evolves.toNumber (outside v mem) (h v mem)
    rw [numbers]

end Region.Evolves

/-- How an action ended, without handles: what its value looks like, or why there is none. -/
def Ending.shape (levels : Nat) : Ending Value → Except Stop Shape
  | .ok v w => .ok (w.shape levels v)
  | .error stop _ => .error stop

def Ending.Alike (e e' : Ending Value) : Prop :=
  ∀ levels, e'.shape levels = e.shape levels

namespace Ending.Alike
variable {e e₁ e₂ : Ending Value}

theorem refl (e : Ending Value) : Alike e e := fun _ => rfl

theorem symm (h : Alike e e₁) : Alike e₁ e := fun levels => (h levels).symm

theorem trans (first : Alike e e₁) (second : Alike e₁ e₂) : Alike e e₂ :=
  fun levels => (second levels).trans (first levels)

theorem of_ok {v : Value} {u : World} (h : Alike e (.ok v u)) :
    ∃ x y, e = .ok x y ∧ ∀ levels, u.shape levels v = y.shape levels x := by
  cases e with
  | ok x y => exact ⟨x, y, rfl, fun levels => Except.ok.inj (h levels)⟩
  | error stop y => cases h 0

variable (w w' : World)

theorem pure {v : Value} (bare : v.handle? = none) :
    Alike ((Pure.pure v : Action Value).run w) ((Pure.pure v : Action Value).run w') :=
  fun levels => congrArg Except.ok (World.shape_scalar bare levels)

theorem newSeq {items : List Value}
    (kept : ∀ v ∈ items, ∀ o, o.inst? = none →
      ∀ levels, (w'.push o).shape levels v = (w.push o).shape levels v) :
    Alike ((newSeq items).run w) ((newSeq items).run w') := by
  intro levels
  show Except.ok ((w'.push (.seq items.toArray)).shape levels (.seq w'.objects.size)) =
    .ok ((w.push (.seq items.toArray)).shape levels (.seq w.objects.size))
  cases levels with
  | zero => rfl
  | succ levels =>
    unfold World.shape World.items
    rw [World.sequence_push, World.sequence_push]
    refine congrArg (fun shapes => Except.ok (Shape.seq shapes)) ?_
    exact List.map_congr_left fun v mem => kept v mem _ rfl levels

theorem newRecord {fields : Table Value}
    (kept : ∀ v ∈ fields.values, ∀ o, o.inst? = none →
      ∀ levels, (w'.push o).shape levels v = (w.push o).shape levels v) :
    Alike ((newRecord fields).run w) ((newRecord fields).run w') := by
  intro levels
  show Except.ok ((w'.push (.record fields)).shape levels (.record w'.objects.size)) =
    .ok ((w.push (.record fields)).shape levels (.record w.objects.size))
  cases levels with
  | zero => rfl
  | succ levels =>
    unfold World.shape
    rw [World.fields_push, World.fields_push]
    refine congrArg (fun shapes => Except.ok (Shape.record shapes)) ?_
    refine List.map_congr_left fun entry mem => ?_
    rw [kept entry.2 (List.mem_map_of_mem mem) _ rfl levels]

theorem newDate (moment : Calendar.Moment) :
    Alike ((newDate moment).run w) ((newDate moment).run w') := by
  intro levels
  show Except.ok ((w'.push (.date moment)).shape levels (.date w'.objects.size)) =
    .ok ((w.push (.date moment)).shape levels (.date w.objects.size))
  unfold World.shape
  rw [World.moment_push, World.moment_push]

end Ending.Alike

namespace NativeType

def Separates (w : World) : NativeType → List Value → Prop
  | object, .record r :: _ | plainObject, .record r :: _ =>
    ∀ v ∈ (w.fields r).values, v.handle? = none
  | array, args => ∀ v ∈ w.arrayItems args, v.handle? = none
  | _, _ => True

def taken (w : World) : NativeType → List Value → List Value
  | object, .record r :: _ | plainObject, .record r :: _ => (w.fields r).values
  | array, args => w.arrayItems args
  | _, _ => []

theorem Separates.flat {w : World} {t : NativeType} {args : List Value}
    (separates : t.Separates w args) : ∀ v ∈ t.taken w args, v.handle? = none := by
  unfold taken
  split
  · exact separates
  · exact separates
  · exact separates
  · exact fun _ none => nomatch none

theorem Separates.evolves {R : Region} {w w' : World} (evolves : R.Evolves w w') {t : NativeType}
    {args : List Value} (separates : t.Separates w args)
    (outside : ∀ v ∈ args, R.Outside w v) : t.Separates w' args := by
  have fields {r : Ref} {rest : List Value} (eq : args = .record r :: rest) :
      w'.fields r = w.fields r :=
    (evolves.same (outside (.record r) (by simp [eq]))).fields r (.start rfl)
  unfold Separates at separates ⊢
  split
  · rw [fields rfl]
    exact separates
  · rw [fields rfl]
    exact separates
  · rw [evolves.arrayItems outside]
    exact separates
  · trivial

theorem construct_kept {R : Region} {w : World} {t : NativeType} {args : List Value}
    (separates : t.Separates w args) (sealed : R.Sealed w) :
    R.Kept R.within w ((t.construct args).run w) := by
  have scalars {vs : List Value} (flat : ∀ v ∈ vs, v.handle? = none) : ∀ v ∈ vs, R.within v :=
    fun v mem => Region.within_scalar (flat v mem)
  unfold construct
  rw [EStateM.run_bind, EStateM.run_get]
  dsimp only
  cases t with
  | object | plainObject =>
    dsimp only
    split
    · exact (Local.newRecord (scalars separates)).confined w sealed
    · exact (Local.newRecord (by simp [Table.values, Table.entries, Table.empty])).confined w sealed
  | array => exact (Local.newSeq (scalars separates)).confined w sealed
  | date =>
    exact (Local.bind (.attempt _) fun moment _ => .newDate moment).confined w sealed
  | _ => exact (Confined.pure trivial) w sealed

theorem construct_alike {R : Region} {w w' : World} (evolves : R.Evolves w w') {t : NativeType}
    {args : List Value} (outside : ∀ v ∈ args, R.Outside w v) (finite : ∀ v ∈ args, w.Finite v)
    (kept : ∀ v ∈ t.taken w args, ∀ o, o.inst? = none →
      ∀ levels, (w'.push o).shape levels v = (w.push o).shape levels v) :
    Ending.Alike ((t.construct args).run w) ((t.construct args).run w') := by
  have head {α : Type} {f f' : Value → α} (same : ∀ v ∈ args, f' v = f v) :
      args.head?.map f' = args.head?.map f := by
    cases args with
    | nil => rfl
    | cons v _ => exact congrArg some (same v (by simp))
  have shown := head fun v mem => evolves.display (outside v mem) (finite v mem)
  have counted := head fun v mem => evolves.toNumber (outside v mem) (finite v mem)
  have led := head fun v mem => evolves.leadingInteger (outside v mem) (finite v mem)
  unfold construct
  rw [EStateM.run_bind, EStateM.run_get, EStateM.run_bind, EStateM.run_get]
  cases t with
  | object | plainObject =>
    dsimp only
    split
    · rename_i r rest
      rw [(evolves.same (outside (.record r) (by simp))).fields r (.start rfl)]
      exact .newRecord w w' kept
    · exact .newRecord w w' (by simp [Table.values, Table.entries, Table.empty])
  | array =>
    dsimp only
    rw [evolves.arrayItems outside]
    exact .newSeq w w' kept
  | date =>
    dsimp only
    rw [evolves.momentOf outside finite]
    cases w.momentOf args with
    | ok moment => exact .newDate w w' moment
    | error stop => exact fun _ => rfl
  | string =>
    dsimp only
    rw [shown]
    exact .pure w w' rfl
  | number | double =>
    dsimp only
    rw [counted]
    exact .pure w w' rfl
  | boolean => exact .pure w w' rfl
  | integer =>
    dsimp only
    rw [led]
    exact .pure w w' rfl

end NativeType

end Accessors
