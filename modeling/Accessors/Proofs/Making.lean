import Accessors.Proofs.Frame
import Accessors.Proofs.Grounded

/-! What a property finds in an empty slot. A basic property and a typed one of a native type make
a value from their defaults, and a read-only property finds nothing. The value is grounded if the
defaults are, and it looks the same however many slots have been filled before it is made. -/

namespace Accessors

namespace PropertyKind

def make : PropertyKind → Action Value
  | basic _ default policy => policy.apply default
  | typed _ (.native t) defaults => t.construct defaults
  | _ => pure .undefined

/-- Constants, and properties with a slot that run no functions of a user. Their defaults are
grounded, and do not contain themselves. -/
inductive Ordinary (w : World) (D : Ref → Prop) : PropertyKind → Prop
  | constant {v : Value} (grounded : w.Grounded D v) : Ordinary w D (.constant v)
  | readOnly (key : StorageKey) : Ordinary w D (.readOnly (.slot key))
  | basic (key : StorageKey) {default : Value} {policy : ClonePolicy}
      (accepted : ClonePolicy.ofDefault default = .ok policy) (finite : w.Finite default)
      (grounded : w.Grounded D default) : Ordinary w D (.basic key default policy)
  | typed (key : StorageKey) (t : NativeType) {defaults : List Value}
      (finite : ∀ v ∈ defaults, w.Finite v) (grounded : ∀ v ∈ defaults, w.Grounded D v) :
      Ordinary w D (.typed key (.native t) defaults)

theorem make_growing (kind : PropertyKind) : Growing kind.make := by
  unfold make
  split
  · exact ClonePolicy.apply_growing _ _
  · exact NativeType.construct_growing _ _
  · exact .pure _

theorem make_deaf (kind : PropertyKind) : Deaf kind.make := by
  unfold make
  split
  · exact (ClonePolicy.apply_stays _ (Region.within_everything _)).deaf
  · exact (NativeType.construct_stays _ fun v _ => Region.within_everything v).deaf
  · exact fun _ _ _ => rfl

end PropertyKind

section
variable {w w' : World} {D : Ref → Prop}

theorem World.Finite.fills {v : Value} (finite : w.Finite v) (grounded : w.Grounded D v)
    (fills : w.Fills w') : w'.Finite v :=
  finite.imp fun _ fathomed =>
    (fills.sameOn grounded.present).fathoms fills.size (fun _ => .start) fathomed

theorem PropertyKind.Ordinary.fills {kind : PropertyKind} (h : kind.Ordinary w D)
    (fills : w.Fills w') : kind.Ordinary w' D := by
  cases h with
  | constant grounded => exact .constant (grounded.fills fills)
  | readOnly key => exact .readOnly key
  | basic key accepted finite grounded =>
    exact .basic key accepted (finite.fills grounded fills) (grounded.fills fills)
  | typed key t finite grounded =>
    exact .typed key t (fun v mem => (finite v mem).fills (grounded v mem) fills)
      fun v mem => (grounded v mem).fills fills

theorem ClonePolicy.apply_copies {default : Value} {policy : ClonePolicy}
    (accepted : ofDefault default = .ok policy) (finite : w.Finite default)
    (grounded : w.Grounded D default) :
    (Region.among w D).Builds (fun u v => ∃ n, World.Copied (Region.among w D) n w default u v) w
      ((policy.apply default).run w) := by
  obtain ⟨levels, fathomed⟩ := finite
  have sealed := Region.sealed_among w D
  cases default with
  | seq r =>
    cases accepted
    cases levels with
    | zero => cases fathomed with | scalar bare => cases bare
    | succ levels =>
    have items : List.Forall₂ (World.Copied (Region.among w D) levels w · w)
        (w.items r) (w.items r) := by
      refine List.forall₂_same.mpr fun item mem => ?_
      have held := World.mem_held_of_items mem
      exact ⟨Region.within_among (grounded.inside rfl held).among, fathomed.inner rfl item held,
        fun _ => rfl⟩
    exact (Region.Builds.sequence sealed items).imp fun _ _ copied => ⟨_, copied⟩
  | record r =>
    cases accepted
    exact (deepCopy_builds fathomed grounded.among sealed).imp fun _ _ copied => ⟨_, copied⟩
  | date r | entity r => cases accepted
  | _ =>
    cases accepted
    exact .pure sealed ⟨0, .scalar rfl⟩

theorem World.Copied.grounded {w₀ u : World} {n : Nat} {v c : Value}
    (copied : Copied (Region.among w D) n w₀ v u c) (sealed : (Region.among w D).Sealed u)
    (bare : ∀ s, D s → u.held s = []) : u.Grounded D c where
  present _ reaches := copied.fathoms.lt reaches
  among s contains := sealed.among bare copied.within s contains

theorem World.Grounded.newSeq {items : List Value} (grounded : ∀ v ∈ items, w.Grounded D v) :
    (w.push (.seq items.toArray)).Grounded D (.seq w.objects.size) := by
  refine .of_held rfl rfl (w.lt_push _) fun item held => ?_
  rw [World.held_push] at held
  exact (grounded item (by simpa [Object.held] using held)).fills (.of_grows (.push w rfl))

theorem World.Grounded.newRecord {fields : Table Value}
    (grounded : ∀ v ∈ fields.values, w.Grounded D v) :
    (w.push (.record fields)).Grounded D (.record w.objects.size) := by
  refine .of_held rfl rfl (w.lt_push _) fun item held => ?_
  rw [World.held_push] at held
  exact (grounded item held).fills (.of_grows (.push w rfl))

theorem World.Grounded.newDate (moment : Calendar.Moment) :
    (w.push (.date moment)).Grounded D (.date w.objects.size) := by
  refine .of_held rfl rfl (w.lt_push _) fun item held => ?_
  rw [World.held_push] at held
  cases held

theorem World.Grounded.arrayItems {args : List Value} (grounded : ∀ v ∈ args, w.Grounded D v) :
    ∀ v ∈ w.arrayItems args, w.Grounded D v := by
  unfold World.arrayItems
  split
  · intro v mem
    obtain ⟨c, _, rfl⟩ := List.mem_map.mp mem
    exact .scalar rfl
  · exact fun v mem => (grounded _ List.mem_cons_self).inside rfl (mem_held_of_items mem)
  · exact fun v mem => (grounded _ List.mem_cons_self).inside rfl (mem_held_of_fields mem)
  · exact grounded

theorem NativeType.taken_grounded (t : NativeType) {args : List Value}
    (grounded : ∀ v ∈ args, w.Grounded D v) : ∀ v ∈ t.taken w args, w.Grounded D v := by
  unfold taken
  split
  · exact fun v mem => (grounded _ List.mem_cons_self).inside rfl (World.mem_held_of_fields mem)
  · exact fun v mem => (grounded _ List.mem_cons_self).inside rfl (World.mem_held_of_fields mem)
  · exact World.Grounded.arrayItems grounded
  · exact fun _ none => nomatch none

theorem NativeType.construct_grounded {t : NativeType} {args : List Value}
    (grounded : ∀ v ∈ args, w.Grounded D v) {v : Value}
    (ran : (t.construct args).run w = .ok v w') : w'.Grounded D v := by
  have taken := t.taken_grounded grounded
  unfold construct at ran
  rw [EStateM.run_bind, EStateM.run_get] at ran
  dsimp only at ran
  cases t with
  | object | plainObject =>
    dsimp only at ran
    split at ran
    · cases ran
      exact .newRecord taken
    · cases ran
      exact .newRecord fun _ none => by simp [Table.values, Table.entries, Table.empty] at none
  | array =>
    cases ran
    exact .newSeq taken
  | date =>
    cases read : w.momentOf args with
    | error error =>
      rw [read] at ran
      cases ran
    | ok moment =>
      rw [read] at ran
      cases ran
      exact .newDate moment
  | _ =>
    cases ran
    exact .scalar rfl

namespace PropertyKind.Ordinary
variable {kind : PropertyKind} (h : kind.Ordinary w D)
include h

theorem make_grounded (instances : ∀ s, D s → (w.typeId? s).isSome) {v : Value}
    (ran : kind.make.run w = .ok v w') : w'.Grounded D v := by
  cases h with
  | constant | readOnly =>
    cases ran
    exact .scalar rfl
  | typed key t finite grounded => exact NativeType.construct_grounded grounded ran
  | @basic key default policy accepted finite grounded =>
    obtain ⟨u, x, built, grows, sealed, n, copied⟩ :=
      (ClonePolicy.apply_copies accepted finite grounded).ok
    cases built.symm.trans ran
    refine copied.grounded sealed fun s mem => ?_
    obtain ⟨t, typed⟩ := Option.isSome_iff_exists.mp (instances s mem)
    exact World.held_of_typeId ((grows.typeId s).trans typed)

theorem make_alike (fills : w.Fills w') : Ending.Alike (kind.make.run w) (kind.make.run w') := by
  cases h with
  | constant | readOnly => exact .pure w w' rfl
  | @typed key t defaults finite grounded =>
    have outside (v : Value) (mem : v ∈ defaults) : (Region.filling w.objects.size).Outside w v :=
      fun s reaches new => absurd ((grounded v mem).present s reaches) (Nat.not_lt.mpr new)
    refine NativeType.construct_alike fills outside finite fun v mem o plain levels => ?_
    have item := t.taken_grounded grounded v mem
    have here := item.shape (.of_grows (.push w plain)) levels
    have there := (item.fills fills).shape (.of_grows (.push w' plain)) levels
    rw [there, item.shape fills, here]
  | @basic key default policy accepted finite grounded =>
    obtain ⟨u, x, built, _, _, n, copied⟩ :=
      (ClonePolicy.apply_copies accepted finite grounded).ok
    obtain ⟨u', x', built', _, _, n', copied'⟩ :=
      (ClonePolicy.apply_copies accepted (finite.fills grounded fills) (grounded.fills fills)).ok
    intro levels
    show Ending.shape levels ((policy.apply default).run w') =
      Ending.shape levels ((policy.apply default).run w)
    rw [built, built']
    refine congrArg Except.ok ?_
    rw [copied'.shape, copied.shape, grounded.shape fills]

end PropertyKind.Ordinary

end

end Accessors
