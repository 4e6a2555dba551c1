import Accessors.Proofs.Library

/-! Every operation of the engine is put together from a few kinds of steps: looking at the
world, local work that leaves entities alone, making an empty entity, storing a value in a
slot, placing one in the slot of a typed property, and announcing. What each of these steps
preserves, every operation preserves, as deep as it nests. Rules say which values may be
stored under a key, and which engines may tell a nested entity its owner; the rules of a world
fit its declared types when every declared property obeys them. -/

namespace Accessors

/-- What a property of some constructor may hold: what the constructor accepts, and for
integers, which are always made anew, any number. -/
def Constructor.Holds (w : World) (c : Constructor) (v : Value) : Prop :=
  c.accepts w v = true ∨ c = .native .integer ∧ ∃ n, v = .number n

abbrev Admission := StorageKey → World → Value → Prop

def PropertyKind.Obeys (admits : Admission) : PropertyKind → Prop
  | .basic key _ _ => ∀ w v, admits key w v
  | .writeOnly (.slot key) => ∀ w v, admits key w v
  | .typed key c _ => ∀ w v, c.Holds w v → admits key w v
  | _ => True

structure Rules where
  types : Array EntityType
  admits : Admission
  engines : Engine → Prop
  named : ∀ name w v, admits (.named name) w v
  declared : ∀ type ∈ types, ∀ p ∈ type.properties.values, p.kind.Obeys admits
  nested : ∀ depth, engines (engine depth)

/-- An action of steps that obey the rules. A value is stored right after it was made, when
it is known to be admitted. -/
inductive Stepwise (ρ : Rules) : {α : Type} → Action α → Prop
  | quiet {α : Type} {P : α → Prop} {a : Action α} (stays : Local .everything P a) : Stepwise ρ a
  | stop {α : Type} (s : Stop) : Stepwise ρ (throw s : Action α)
  | bind {α β : Type} {a : Action α} {k : α → Action β} (first : Stepwise ρ a)
      (next : ∀ v, Stepwise ρ (k v)) : Stepwise ρ (a >>= k)
  | look {β : Type} {k : World → Action β} (same : ∀ w c h, k (w.hearing c h) = k w)
      (next : ∀ w, w.types = ρ.types → Stepwise ρ (k w)) : Stepwise ρ (get >>= k)
  | create (type : TypeId) : Stepwise ρ (alloc (.entity ⟨type, .empty, []⟩))
  | store {β : Type} {make : Action Value} {k : Value → Unit → Action β} (r : Ref)
      (key : StorageKey) (first : Stepwise ρ make)
      (admitted : ∀ w v w', w.types = ρ.types → make.run w = .ok v w' → ρ.admits key w' v)
      (next : ∀ v, Stepwise ρ (k v ())) :
      Stepwise ρ (make >>= fun v => setSlot r key v >>= k v)
  | place {β : Type} {make : Action Value} {k : Value → Unit → Action β} {e : Engine}
      (ruled : ρ.engines e) (r : Ref) (key : StorageKey) (first : Stepwise ρ make)
      (admitted : ∀ w v w', w.types = ρ.types → make.run w = .ok v w' → ρ.admits key w' v)
      (told : ∀ v, Stepwise ρ (attachParent e v (.entity r)))
      (next : ∀ v, Stepwise ρ (k v ())) :
      Stepwise ρ (make >>= fun v => place e r key v >>= k v)
  | report (kind : ReportKind) (text : String) : Stepwise ρ (report kind text)

namespace World

theorem after_bind {α β : Type} (w : World) (a : Action α) (k : α → Action β) :
    w.after (a >>= k) =
      match a.run w with
      | .ok v w' => w'.after (k v)
      | .error _ w' => w' := by
  unfold after
  rw [EStateM.run_bind]
  cases a.run w <;> rfl

theorem after_look {β : Type} (w : World) (k : World → Action β) :
    w.after (get >>= k) = w.after (k w) :=
  rfl

theorem after_eq_of_ok {α : Type} {w w' : World} {a : Action α} {v : α}
    (h : a.run w = .ok v w') : w.after a = w' := by
  unfold after
  rw [h]
  rfl

theorem after_eq_of_error {α : Type} {w w' : World} {a : Action α} {stop : Stop}
    (h : a.run w = .error stop w') : w.after a = w' := by
  unfold after
  rw [h]
  rfl

theorem run_bind_of {α β : Type} {P : Ending α → Prop} {Q : Ending β → Prop} {w : World}
    {a : Action α} {k : α → Action β} (first : P (a.run w))
    (stops : ∀ stop w', P (.error stop w') → Q (.error stop w'))
    (next : ∀ v w', P (.ok v w') → Q ((k v).run w')) : Q ((a >>= k).run w) := by
  rw [EStateM.run_bind]
  cases ending : a.run w with
  | ok v w' =>
    rw [ending] at first
    exact next v w' first
  | error stop w' =>
    rw [ending] at first
    exact stops stop w' first

theorem run_bind_error {α β : Type} {w w' : World} {a : Action α} {k : α → Action β} {stop : Stop}
    (h : (a >>= k).run w = .error stop w') :
    a.run w = .error stop w' ∨
      ∃ v w₁, a.run w = .ok v w₁ ∧ (k v).run w₁ = .error stop w' := by
  rw [EStateM.run_bind] at h
  cases ending : a.run w with
  | ok v w₁ =>
    rw [ending] at h
    exact .inr ⟨v, w₁, rfl, h⟩
  | error stop' w₁ =>
    rw [ending] at h
    cases h
    exact .inl rfl

theorem run_bind_ok {α β : Type} {w w' : World} {a : Action α} {k : α → Action β} {u : β}
    (h : (a >>= k).run w = .ok u w') : ∃ v w₁, a.run w = .ok v w₁ ∧ (k v).run w₁ = .ok u w' := by
  rw [EStateM.run_bind] at h
  cases ending : a.run w with
  | ok v w₁ =>
    rw [ending] at h
    exact ⟨v, w₁, rfl, h⟩
  | error stop w₁ =>
    rw [ending] at h
    cases h

theorem after_report (w : World) (kind : ReportKind) (text : String) :
    w.after (report kind text) = w.announce ⟨kind, text⟩ := by
  show Ending.world (EStateM.run (if (w.announce ⟨kind, text⟩).channel.strict then _ else _) _) = _
  split <;> rfl

theorem report_error {kind : ReportKind} {text : String} {w w' : World} {stop : Stop}
    (ran : (report kind text).run w = .error stop w') : stop = .error (.misuse ⟨kind, text⟩) := by
  change EStateM.run (if (w.announce ⟨kind, text⟩).channel.strict then _ else _) _ = _ at ran
  split at ran <;> cases ran
  rfl

theorem after_bind_of {α β : Type} {I : World → Prop} {w : World} {a : Action α}
    {k : α → Action β} (first : I (w.after a))
    (next : ∀ v w', a.run w = .ok v w' → I w' → I (w'.after (k v))) :
    I (w.after (a >>= k)) := by
  rw [after_bind]
  unfold after at first
  cases ending : a.run w with
  | ok v w' =>
    rw [ending] at first
    exact next v w' ending first
  | error stop w' =>
    rw [ending] at first
    exact first

end World

theorem place_entity (e : Engine) (r : Ref) (key : StorageKey) (n : Ref) :
    place e r key (.entity n) = (do
      setSlot r key (.entity n)
      note (.stored r key n)
      attachParent e (.entity n) (.entity r)
      note (.attached r n)) :=
  rfl

theorem place_plain {v : Value} (plain : v.isEntity = false) (e : Engine) (r : Ref)
    (key : StorageKey) : place e r key v = setSlot r key v := by
  cases v <;> first | rfl | cases plain

structure Invariant (ρ : Rules) (I : World → Prop) : Prop where
  types : ∀ w, I w → w.types = ρ.types
  quiet : ∀ w w', Region.everything.Evolves w w' → I w → I w'
  create : ∀ w type, I w → I (w.push (.entity ⟨type, .empty, []⟩))
  store : ∀ w r key v, ρ.admits key w v → I w → I (w.after (setSlot r key v))
  note : ∀ w tie, I w → I (w.note tie)
  announce : ∀ w report, I w → I (w.announce report)

theorem Invariant.place {ρ : Rules} {I : World → Prop} (inv : Invariant ρ I) {e : Engine} {r : Ref}
    {key : StorageKey} {v : Value} {w : World} (admitted : ρ.admits key w v)
    (told : ∀ w, I w → I (w.after (attachParent e v (.entity r)))) (h : I w) :
    I (w.after (place e r key v)) := by
  have stored := inv.store w r key v admitted h
  cases v with
  | entity n =>
    rw [place_entity]
    exact World.after_bind_of stored fun _ w₁ _ h₁ =>
      World.after_bind_of (inv.note w₁ _ h₁) fun _ w₂ _ h₂ =>
        World.after_bind_of (told w₂ h₂) fun _ w₃ _ h₃ => inv.note w₃ _ h₃
  | _ => exact stored

namespace Stepwise
variable {ρ : Rules} {α β : Type}

theorem invariant {I : World → Prop} (inv : Invariant ρ I) {a : Action α}
    (h : Stepwise ρ a) : ∀ w, I w → I (w.after a) := by
  induction h with
  | quiet stays =>
    intro w hw
    exact inv.quiet w _ (stays w (Region.sealed_everything w)).2.after.1 hw
  | stop s => exact fun w hw => hw
  | bind first next ihFirst ihNext =>
    exact fun w hw => World.after_bind_of (ihFirst w hw) fun v w' _ => ihNext v w'
  | look same next ih => exact fun w hw => ih w (inv.types w hw) w hw
  | create type => exact fun w hw => inv.create w type hw
  | store r key first admitted next ihFirst ihNext =>
    refine fun w hw => World.after_bind_of (ihFirst w hw) fun v w' ending hw' => ?_
    exact ihNext v _ (inv.store w' r key v (admitted w v w' (inv.types w hw) ending) hw')
  | place _ r key first admitted told next ihFirst ihTold ihNext =>
    refine fun w hw => World.after_bind_of (ihFirst w hw) fun v w' ending hw' => ?_
    have placed := inv.place (admitted w v w' (inv.types w hw) ending) (ihTold v) hw'
    exact World.after_bind_of placed fun _ w'' _ => ihNext v w''
  | report kind text =>
    intro w hw
    rw [World.after_report]
    exact inv.announce w ⟨kind, text⟩ hw

theorem pure (v : α) : Stepwise ρ (Pure.pure v) :=
  .quiet (.pure (P := fun _ => True) trivial)

theorem fail (error : Error) : Stepwise ρ (fail error : Action α) := .stop _

theorem write {r : Ref} {key : StorageKey} {v : Value} (admitted : ∀ w, ρ.admits key w v) :
    Stepwise ρ (setSlot r key v) := by
  show Stepwise ρ (Pure.pure v >>= fun v => setSlot r key v >>= fun _ => Pure.pure ())
  refine .store r key (pure v) (fun w u w' _ ran => ?_) fun _ => pure ()
  cases ran
  exact admitted w

theorem typed_invariant (r : Ref) (t : TypeId) :
    Invariant ρ fun w => w.types = ρ.types ∧ w.typeId? r = some t where
  types _ h := h.1
  quiet _ _ evolves h := ⟨evolves.types.trans h.1, (evolves.typeId r).trans h.2⟩
  create _ _ h := ⟨h.1, World.typeId?_push h.2 _⟩
  store w s key v _ h := ⟨h.1, (World.typeId?_setSlot w s key v r).trans h.2⟩
  note _ _ h := h
  announce _ _ h := h

theorem typeId {a : Action α} (h : Stepwise ρ a) {w : World} (types : w.types = ρ.types)
    {r : Ref} {t : TypeId} (typed : w.typeId? r = some t) : (w.after a).typeId? r = some t :=
  (h.invariant (typed_invariant r t) w ⟨types, typed⟩).2

theorem types_invariant : Invariant ρ fun w => w.types = ρ.types where
  types _ h := h
  quiet _ _ evolves h := evolves.types.trans h
  create _ _ h := h
  store _ _ _ _ _ h := h
  note _ _ h := h
  announce _ _ h := h

theorem types {a : Action α} (h : Stepwise ρ a) {w : World} (types : w.types = ρ.types) :
    (w.after a).types = ρ.types :=
  h.invariant types_invariant w types

end Stepwise

end Accessors
