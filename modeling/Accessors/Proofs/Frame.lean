import Accessors.Proofs.DefaultIsolation
import Accessors.Proofs.Dispatch

/-! What a call of a property may change when no user function can be met. The property reads
its value, evaluates the instruction on it and stores what comes of that. Reading may fill the
property's own slot, evaluating changes only what can be reached from the value, and storing
sets the own slot again: nothing else is different afterwards, however the call ends. -/

namespace Accessors

namespace PropertyKind

/-- Properties with a slot and without functions of a user: basic ones, read-only ones, and
typed ones of a native type. -/
inductive Native : PropertyKind → Prop
  | basic (key : StorageKey) (default : Value) (policy : ClonePolicy) :
    Native (.basic key default policy)
  | readOnly (key : StorageKey) : Native (.readOnly (.slot key))
  | typed (key : StorageKey) (t : NativeType) (defaults : List Value) :
    Native (.typed key (.native t) defaults)

def owner : PropertyKind → Option Constructor
  | typed _ c _ => some c
  | _ => none

theorem Native.owner {kind : PropertyKind} (native : kind.Native) : NativeOwner kind.owner := by
  cases native with
  | typed key t defaults => exact .native t
  | _ => exact .none

def store (e : Engine) (kind : PropertyKind) (r : Ref) (v : Value) (args : List Value) :
    Action Unit :=
  match kind with
  | basic key _ _ => setSlot r key v
  | typed key c _ => do place e r key (← coerce e c v args)
  | _ => reportReadOnlyWrite

def conclude (e : Engine) (kind : PropertyKind) (r : Ref) (key : Value) (rest : List Value) :
    Outcome → Action Value
  | .read v => pure v
  | .write v => do
    store e kind r v [v]
    pure (.entity r)
  | .request => do
    store e kind r key (key :: rest)
    pure (.entity r)
  | .done => pure (.entity r)

end PropertyKind

namespace Property
variable {p : Property}

theorem invoke_eq (native : p.kind.Native) (e : Engine) (r : Ref) (key : Value) (rest : List Value) :
    p.invoke e (.entity r) (key :: rest) = (do
      let c ← p.invoke e (.entity r) []
      let outcome ← evaluate e c key rest p.kind.owner
      p.kind.conclude e r key rest outcome) := by
  unfold invoke
  generalize p.kind = kind at native ⊢
  cases native with
  | basic slot default policy =>
    simp only [PropertyKind.invoke, PropertyKind.owner, receiver, pure_bind, bind_assoc]
    refine bind_congr fun c => bind_congr fun outcome => ?_
    cases outcome <;> rfl
  | readOnly slot =>
    simp only [PropertyKind.invoke, PropertyKind.owner, ReadSide.read, receiver, pure_bind,
      bind_assoc]
    refine bind_congr fun w => bind_congr fun outcome => ?_
    cases outcome <;> rfl
  | typed slot t defaults =>
    simp only [PropertyKind.invoke, PropertyKind.owner, receiver, pure_bind, bind_assoc]
    refine bind_congr fun c => bind_congr fun outcome => ?_
    cases outcome <;> simp [PropertyKind.conclude, PropertyKind.store]

def ownSlot (p : Property) (r s : Ref) (key : StorageKey) : Prop :=
  s = r ∧ p.storageKey? = some key ∧ p.mode ≠ .readOnly

theorem ownSlot_basic (id : Nat) (key : StorageKey) (default : Value) (policy : ClonePolicy)
    (r : Ref) : ownSlot ⟨id, .basic key default policy⟩ r r key :=
  ⟨rfl, rfl, nofun⟩

theorem ownSlot_typed (id : Nat) (key : StorageKey) (c : Constructor) (defaults : List Value)
    (r : Ref) : ownSlot ⟨id, .typed key c defaults⟩ r r key :=
  ⟨rfl, rfl, nofun⟩

def frame (p : Property) (r : Ref) (S : Ref → Prop) (n : Nat) : Region :=
  ⟨fun s => S s ∨ n ≤ s, fun _ => False, p.ownSlot r⟩

section
variable {r : Ref} {S : Ref → Prop} {n : Nat} {w w' : World}

theorem frame_of_alters (alters : w.Alters S w') (later : n ≤ w.objects.size) :
    (p.frame r S n).Evolves w w' :=
  Region.Evolves.mono alters (fun _ may => may.imp (fun h => h) (Nat.le_trans later))
    fun _ _ never => never.elim

theorem frame_of_grows (grows : w.Grows w') (later : n ≤ w.objects.size) :
    (p.frame r S n).Evolves w w' :=
  frame_of_alters grows.alters later

theorem frame_of_stored {key : StorageKey} (own : p.ownSlot r r key) {make : Action Value}
    (grows : Growing make) :
    (p.frame r S w.objects.size).Evolves w (Ending.stored r key (make.run w)).world := by
  have made := frame_of_grows (p := p) (r := r) (S := S) (grows w) (Nat.le_refl _)
  unfold World.after at made
  cases ending : make.run w with
  | ok v w₁ =>
    rw [ending] at made
    exact Region.Evolves.trans made (.setSlot own v)
  | error stop w₁ =>
    rw [ending] at made
    exact made

end

end Property

theorem coerce_isEntity {e : Engine} {t : NativeType} {v u : Value} {args : List Value}
    {w w' : World} (ran : (coerce e (.native t) v args).run w = .ok u w') : u.isEntity = false := by
  rw [coerce_run] at ran
  split at ran
  · rename_i accepted
    cases ran
    exact NativeType.accepts_isEntity accepted
  · exact NativeType.construct_isEntity ran

namespace PropertyKind.Native
variable {p : Property} (native : p.kind.Native) (e : Engine) (r : Ref) {S : Ref → Prop}
  {n : Nat} {w : World}
include native

theorem store_frame (v : Value) (args : List Value) (later : n ≤ w.objects.size) :
    (p.frame r S n).Evolves w (w.after (p.kind.store e r v args)) := by
  obtain ⟨id, kind⟩ := p
  cases native with
  | basic key default policy =>
    exact Region.Evolves.setSlot (Property.ownSlot_basic id key default policy r) v
  | readOnly key => exact Property.frame_of_grows (Growing.report _ _ w) later
  | typed key t defaults =>
    have own := Property.ownSlot_typed id key (.native t) defaults r
    have coerced := coerce_growing e t v args w
    refine World.after_bind_of (I := (Property.frame _ r S n).Evolves w)
      (Property.frame_of_grows coerced later) fun u w₁ ran before => ?_
    rw [place_plain (coerce_isEntity ran)]
    exact before.trans (Region.Evolves.setSlot own u)

theorem conclude_frame (key : Value) (rest : List Value) (outcome : Outcome)
    (later : n ≤ w.objects.size) :
    (p.frame r S n).Evolves w (w.after (p.kind.conclude e r key rest outcome)) := by
  have stored (v : Value) (args : List Value) : (p.frame r S n).Evolves w
      (w.after (p.kind.store e r v args >>= fun _ => pure (Value.entity r))) :=
    World.after_bind_of (native.store_frame e r v args later) fun _ _ _ before => before
  cases outcome with
  | read v => exact .refl w
  | write v => exact stored v [v]
  | request => exact stored key (key :: rest)
  | done => exact .refl w

theorem read_frame
    (unnested : ∀ key c defaults m, p.kind = .typed key c defaults →
      w.slot? r key ≠ some (.entity m)) :
    (p.frame r S w.objects.size).Evolves w (w.after (p.invoke e (.entity r) [])) := by
  obtain ⟨id, kind⟩ := p
  cases native with
  | basic key default policy =>
    rw [Property.read_basic e rfl]
    unfold World.after
    rcases w.filled_or_empty r key with ⟨v, found, defined⟩ | empty
    · unfold readBasic
      rw [currentSlot_filled found defined]
      exact .refl w
    · rw [readBasic_empty empty]
      have own := Property.ownSlot_basic id key default policy r
      exact Property.frame_of_stored own (policy.apply_growing default)
  | readOnly key => exact .refl w
  | typed key t defaults =>
    rw [Property.read_typed e rfl]
    unfold World.after
    rcases w.filled_or_empty r key with ⟨v, found, defined⟩ | empty
    · have plain : v.isEntity = false := by
        cases v with
        | entity m => exact absurd found (unnested key _ _ m rfl)
        | _ => rfl
      rw [readTyped_filled found defined plain]
      exact .refl w
    · rw [readTyped_empty empty]
      have own := Property.ownSlot_typed id key (.native t) defaults r
      exact Property.frame_of_stored own (t.construct_growing defaults)

end PropertyKind.Native

/-- A property with a slot and without functions of a user, no nested entity in its slot, and
no entity in the value that it reads or among the arguments. However a call of it ends: the
only slot that may be different is the property's own one, for a read-only property not even
that; and a sequence, record or date that was there before and cannot be reached from the
value read is as it was, whether an argument leads to it or not. -/
theorem call_changes_own_slot_and_value {p : Property} (native : p.kind.Native) (e : Engine)
    (r : Ref) {w : World} {args : List Value}
    (unnested : ∀ key c defaults m, p.kind = .typed key c defaults →
      w.slot? r key ≠ some (.entity m))
    (free : ∀ c w₁, (p.invoke e (.entity r) []).run w = .ok c w₁ →
      w₁.EntityFree c ∧ ∀ v ∈ args, w₁.EntityFree v) :
    let w₂ := w.after (p.invoke e (.entity r) args)
    (∀ s key, w₂.slot? s key ≠ w.slot? s key →
      s = r ∧ p.storageKey? = some key ∧ p.mode ≠ .readOnly) ∧
    ∀ s, s < w.objects.size → w.typeId? s = none →
      (∀ c w₁, (p.invoke e (.entity r) []).run w = .ok c w₁ → ¬ w₁.Reaches c s) →
      w₂.objects[s]? = w.objects[s]? := by
  intro w₂
  let reached (s : Ref) : Prop :=
    ∃ c w₁, (p.invoke e (.entity r) []).run w = .ok c w₁ ∧ w₁.Reaches c s
  suffices evolves : (p.frame r reached w.objects.size).Evolves w w₂ by
    refine ⟨fun s key differs => ?_, fun s older plain apart => ?_⟩
    · by_contra other
      exact differs (evolves.slots s key other)
    · refine evolves.others s ?_ plain
      rintro (⟨c, w₁, ran, reaches⟩ | new)
      · exact apart c w₁ ran reaches
      · exact absurd older (Nat.not_lt.mpr new)
  have read := native.read_frame e r (S := reached) unnested
  cases args with
  | nil => exact read
  | cons key rest =>
    show (p.frame r reached w.objects.size).Evolves w (w.after (p.invoke e (.entity r) (key :: rest)))
    rw [p.invoke_eq native]
    refine World.after_bind_of (I := (p.frame r reached w.objects.size).Evolves w) read
      fun c w₁ ran before => ?_
    obtain ⟨free, given⟩ := free c w₁ ran
    have plain (v : Value) (mem : v ∈ rest) : v.isEntity = false :=
      given v (List.mem_cons_of_mem key mem) v (.self v)
    have altered := (evaluate_effect e free key plain native.owner).alters.mono
      fun s reaches => show reached s from ⟨c, w₁, ran, reaches⟩
    refine World.after_bind_of (I := (p.frame r reached w.objects.size).Evolves w)
      (before.trans (Property.frame_of_alters altered before.size)) fun outcome w₃ _ evaluated => ?_
    exact evaluated.trans (native.conclude_frame e r key rest outcome evaluated.size)

/-- Appending a sequence to the one in the slot: the appended one stays empty. -/
theorem push_keeps_argument :
    let p : Property := ⟨9, .basic (.generated 0) .undefined .identity⟩
    let args : List Value := [.str "#push", .seq 2]
    let w := { World.initial with
      objects := #[.entity ⟨0, .empty, [(0, .seq 1)]⟩, .seq #[.number 1], .seq #[]] }
    let w₂ := w.after (p.invoke (engine 1) (.entity 0) args)
    w₂.items 1 = [.number 1, .seq 2] ∧
      (∀ s key, w₂.slot? s key ≠ w.slot? s key →
        s = 0 ∧ p.storageKey? = some key ∧ p.mode ≠ .readOnly) ∧
      ∀ s, s < w.objects.size → w.typeId? s = none →
        (∀ c w₁, (p.invoke (engine 1) (.entity 0) []).run w = .ok c w₁ → ¬ w₁.Reaches c s) →
        w₂.objects[s]? = w.objects[s]? := by
  intro p args w w₂
  have native : p.kind.Native := .basic _ _ _
  have read : (p.invoke (engine 1) (.entity 0) []).run w = .ok (.seq 1) w := rfl
  have free : ∀ c w₁, (p.invoke (engine 1) (.entity 0) []).run w = .ok c w₁ →
      w₁.EntityFree c ∧ ∀ v ∈ args, w₁.EntityFree v := by
    intro c w₁ ran
    cases read.symm.trans ran
    have flat : w.EntityFree (.seq 1) := .of_held rfl fun r handle item held => by
      cases handle
      rw [List.mem_singleton.mp held]
      exact .scalar rfl
    have empty : w.EntityFree (.seq 2) := .of_held rfl fun r handle item held => by
      cases handle
      cases held
    refine ⟨flat, fun v mem => ?_⟩
    rcases List.mem_cons.mp mem with rfl | mem
    · exact .scalar rfl
    · rw [List.mem_singleton.mp mem]
      exact empty
  exact ⟨rfl, call_changes_own_slot_and_value native (engine 1) 0 (fun _ _ _ _ kind => nomatch kind)
    free⟩

/-- An instance whose `value` is kept in a slot, and another one with the first in its slot. -/
def nestedValue : World :=
  { World.initial with
    types := #[{ EntityType.bare "Nested" with
      properties := Table.ofList [("value", ⟨9, .basic (.named "_v") (.number 5) .identity⟩)] }]
    objects := #[.entity ⟨0, .empty, []⟩, .entity ⟨1, Table.ofList [("_x", .entity 0)], []⟩] }

/-- A typed property that finds a nested entity in its slot reads that one's `value`, and reading
it fills a slot of the nested entity. -/
theorem nested_value_slot_filled :
    let p : Property := ⟨10, .typed (.named "_x") (.native .number) []⟩
    let args : List Value := [.str "+", .number 1]
    p.kind.Native ∧
      (∀ c w₁, (p.invoke (engine 1) (.entity 1) []).run nestedValue = .ok c w₁ →
        w₁.EntityFree c ∧ ∀ v ∈ args, w₁.EntityFree v) ∧
      ¬ ∀ s key, (nestedValue.after (p.invoke (engine 1) (.entity 1) args)).slot? s key ≠
          nestedValue.slot? s key → s = 1 ∧ p.storageKey? = some key ∧ p.mode ≠ .readOnly := by
  intro p args
  refine ⟨.typed _ _ _, fun c w₁ ran => ?_, fun framed => ?_⟩
  · have read : (p.invoke (engine 1) (.entity 1) []).run nestedValue =
        .ok (.number 5) (nestedValue.after (setSlot 0 (.named "_v") (.number 5))) := rfl
    cases read.symm.trans ran
    refine ⟨.scalar rfl, fun v mem => .scalar ?_⟩
    rcases List.mem_cons.mp mem with rfl | mem
    · rfl
    · rw [List.mem_singleton.mp mem]
      rfl
  · have filled : (nestedValue.after (p.invoke (engine 1) (.entity 1) args)).slot? 0 (.named "_v") =
        some (.number 5) := rfl
    have empty : nestedValue.slot? 0 (.named "_v") = none := rfl
    have own := framed 0 (.named "_v") (by rw [filled, empty]; nofun)
    cases own.1

end Accessors
