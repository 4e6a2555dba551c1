import Accessors.Proofs.Refinement

/-! A nested entity that stays in its slot. Everything the engine does keeps what a filled slot
holds, but for two things: a write to that very slot, and functions of a user, which may do
anything. An engine whose functions stop instead of changing the slot makes the second
impossible; what ends well in it ends in the same way in the engine it came from. -/

namespace Accessors

def World.Nests (w : World) (o : Ref) (slot : StorageKey) (n : Ref) : Prop :=
  w.slot? o slot = some (.entity n)

theorem Value.same_entity {v : Value} {n : Ref} : v.same (.entity n) = true ↔ v = .entity n := by
  cases v <;> simp [same]

theorem World.nests_iff {w : World} {o n : Ref} {slot : StorageKey} :
    (w.slot? o slot).any (·.same (.entity n)) = true ↔ w.Nests o slot n := by
  simp [Nests, Option.any_eq_true, Value.same_entity]

instance (w : World) (o : Ref) (slot : StorageKey) (n : Ref) : Decidable (w.Nests o slot n) :=
  decidable_of_iff _ World.nests_iff

theorem World.Nests.bind {α β : Type} {w : World} {o n : Ref} {slot : StorageKey} {a : Action α}
    {k : α → Action β} (first : (w.after a).Nests o slot n)
    (next : ∀ v w', a.run w = .ok v w' → w'.Nests o slot n → (w'.after (k v)).Nests o slot n) :
    (w.after (a >>= k)).Nests o slot n :=
  World.after_bind_of (I := (·.Nests o slot n)) first next

def Retains {α : Type} (o : Ref) (slot : StorageKey) (n : Ref) (a : Action α) : Prop :=
  ∀ w : World, w.Nests o slot n → (w.after a).Nests o slot n

namespace Retains
variable {o n : Ref} {slot : StorageKey} {α β : Type}

theorem quiet {P : α → Prop} {a : Action α} (stays : Local .everything P a) :
    Retains o slot n a := by
  intro w held
  unfold World.Nests
  rw [(stays w (Region.sealed_everything w)).2.after.1.slots o slot id]
  exact held

theorem pure (v : α) : Retains o slot n (Pure.pure v) := fun _ held => held

theorem fail (error : Error) : Retains o slot n (fail error : Action α) := fun _ held => held

theorem bind {a : Action α} {k : α → Action β} (first : Retains o slot n a)
    (next : ∀ v, Retains o slot n (k v)) : Retains o slot n (a >>= k) :=
  fun w held => .bind (first w held) fun v w' _ => next v w'

theorem look {k : World → Action β} (next : ∀ w, Retains o slot n (k w)) :
    Retains o slot n (get >>= k) :=
  fun w held => next w w held

theorem report (kind : ReportKind) (text : String) : Retains o slot n (report kind text) := by
  intro w held
  rw [World.after_report]
  exact held

theorem note (tie : Tie) : Retains o slot n (note tie) := fun _ held => held

theorem setSlot {r : Ref} {key : StorageKey} (other : ¬ (r = o ∧ key = slot)) (v : Value) :
    Retains o slot n (setSlot r key v) := by
  intro w held
  unfold World.Nests
  rw [World.slot?_setSlot, if_neg fun h => other ⟨h.1, h.2.1⟩]
  exact held

end Retains

/-- Runs an action, and stops where it started if the slot does not hold the entity then. -/
def sparing {α : Type} (o : Ref) (slot : StorageKey) (n : Ref) (a : Action α) : Action α :=
  fun w => if (w.after a).Nests o slot n then a.run w else .error .tooDeep w

/-- The engine in which functions of a user stop instead of changing the slot. -/
def sparingEngine (o : Ref) (slot : StorageKey) (n : Ref) : (depth : Nat) → Engine
  | 0 => engine 0
  | depth + 1 =>
    ⟨fun body this args => sparing o slot n (body.eval (engine depth) this args),
      fun p this => p.invoke (sparingEngine o slot n depth) this [],
      (engine (depth + 1)).toJson⟩

section
variable {o n : Ref} {slot : StorageKey}

theorem sparing_run {α : Type} (a : Action α) (w : World) :
    (sparing o slot n a).run w =
      if (w.after a).Nests o slot n then a.run w else .error .tooDeep w :=
  rfl

theorem sparing_retains {α : Type} (a : Action α) : Retains o slot n (sparing o slot n a) := by
  intro w held
  unfold World.after
  rw [sparing_run]
  split
  · assumption
  · exact held

end

structure Engine.Spares (o : Ref) (slot : StorageKey) (n : Ref) (e : Engine) : Prop where
  run : ∀ body this args, Retains o slot n (e.run body this args)
  readNested : ∀ p this, Retains o slot n (e.readNested p this)

section
variable {o n : Ref} {slot : StorageKey} {e : Engine} (he : e.Spares o slot n)
include he

theorem Getter.get_retains (g : Getter) (this : Value) : Retains o slot n (g.get e this) := by
  cases g with
  | script body => exact he.run body this []
  | dateField field => exact .quiet (field.read_stays this)

theorem Setter.set_retains (s : Setter) (this value : Value) :
    Retains o slot n (s.set e this value) := by
  cases s with
  | script body => exact .bind (he.run body this [value]) fun _ => .pure ()
  | dateField field => exact .quiet (field.write_stays value (Region.within_everything this))

theorem constructEntity_retains (type : TypeId) (args : List Value) :
    Retains o slot n (constructEntity e type args) := by
  have created : Retains o slot n (alloc (.entity ⟨type, .empty, []⟩)) := fun w held =>
    (w.slot?_push_bare type o slot).trans held
  refine .bind created fun r => .look fun w => ?_
  split
  · exact .bind (he.run _ _ _) fun _ => .pure _
  · exact .pure _

theorem Constructor.construct_retains (c : Constructor) (args : List Value) :
    Retains o slot n (c.construct e args) := by
  cases c with
  | native t => exact .quiet (t.construct_stays fun v _ => Region.within_everything v)
  | entity t => exact constructEntity_retains he t args

theorem coerce_retains (c : Constructor) (v : Value) (args : List Value) :
    Retains o slot n (coerce e c v args) := by
  refine .look fun w => ?_
  split
  · exact .pure v
  · exact c.construct_retains he args

theorem unwrapNested_retains (nested : Value) : Retains o slot n (unwrapNested e nested) := by
  cases nested with
  | entity r =>
    refine .look fun w => ?_
    split
    · split
      · exact he.readNested _ _
      · exact .pure _
    · exact .pure _
  | _ => exact .pure _

theorem attachParent_retains (nested owner : Value) :
    Retains o slot n (attachParent e nested owner) := by
  cases nested with
  | entity r =>
    refine .look fun w => ?_
    split
    · exact .bind (he.run _ _ _) fun _ => .pure ()
    · exact .pure ()
  | _ => exact .pure ()

theorem place_retains {r : Ref} {key : StorageKey} (other : ¬ (r = o ∧ key = slot)) (v : Value) :
    Retains o slot n (place e r key v) := by
  have stored := Retains.setSlot (n := n) other v
  cases v with
  | entity m =>
    rw [place_entity]
    exact .bind stored fun _ => .bind (.note _) fun _ =>
      .bind (attachParent_retains he _ _) fun _ => .note _
  | _ => exact stored

omit he in
theorem currentSlot_retains (r : Ref) (key : StorageKey) {make : Action Value}
    (made : ¬ (r = o ∧ key = slot) → Retains o slot n make) :
    Retains o slot n (currentSlot r key make) := by
  intro w held
  by_cases own : r = o ∧ key = slot
  · obtain ⟨rfl, rfl⟩ := own
    rw [World.after_eq_of_ok (currentSlot_filled held rfl make)]
    exact held
  · refine Retains.look (fun w => ?_) w held
    split
    · split
      · exact made own
      · exact .pure _
    · exact made own

omit he in
theorem readBasic_retains (r : Ref) (key : StorageKey) (default : Value) (policy : ClonePolicy) :
    Retains o slot n (readBasic r key default policy) :=
  currentSlot_retains r key fun other =>
    .bind (.quiet (policy.apply_stays (Region.within_everything default))) fun v =>
      .bind (.setSlot other v) fun _ => .pure v

theorem readTyped_retains (r : Ref) (key : StorageKey) (c : Constructor) (defaults : List Value) :
    Retains o slot n (readTyped e r key c defaults) := by
  refine .bind (currentSlot_retains r key fun other => ?_) fun nested =>
    unwrapNested_retains he nested
  exact .bind (c.construct_retains he defaults) fun v =>
    .bind (place_retains he other v) fun _ => .pure v

omit he in
theorem receiver_retains (this : Value) : Retains o slot n (receiver this) := by
  cases this with
  | entity r => exact .pure r
  | _ => exact .fail _

theorem ReadSide.read_retains (side : ReadSide) (this : Value) :
    Retains o slot n (side.read e this) := by
  cases side with
  | getter g => exact g.get_retains he this
  | slot key => exact .bind (receiver_retains this) fun r => .look fun _ => .pure _

theorem Property.read_retains (p : Property) (this : Value) :
    Retains o slot n (p.invoke e this []) := by
  obtain ⟨id, kind⟩ := p
  cases kind with
  | constant v => exact .pure v
  | readOnly side => exact .bind (side.read_retains he this) fun _ => .pure _
  | writeOnly side => exact .bind (.report _ _) fun _ => .pure _
  | custom g s => exact .bind (g.get_retains he this) fun _ => .pure _
  | basic key default policy =>
    exact .bind (receiver_retains this) fun r =>
      .bind (readBasic_retains r key default policy) fun _ => .pure _
  | typed key c defaults =>
    exact .bind (receiver_retains this) fun r =>
      .bind (readTyped_retains he r key c defaults) fun _ => .pure _

end

theorem sparingEngine_spares (o : Ref) (slot : StorageKey) (n depth : Nat) :
    (sparingEngine o slot n depth).Spares o slot n := by
  induction depth with
  | zero => exact ⟨fun _ _ _ _ held => held, fun _ _ _ held => held⟩
  | succ depth ih => exact ⟨fun _ _ _ => sparing_retains _, fun p this => p.read_retains ih this⟩

theorem sparingEngine_refines (o : Ref) (slot : StorageKey) (n depth : Nat) :
    (sparingEngine o slot n depth).Refines (engine depth) := by
  induction depth with
  | zero => exact ⟨fun _ _ _ => .refl _, fun _ _ => .refl _⟩
  | succ depth ih =>
    refine ⟨fun body this args w v w' ran => ?_, fun p this => p.read_refines ih this⟩
    change (sparing o slot n (body.eval (engine depth) this args)).run w = _ at ran
    rw [sparing_run] at ran
    split at ran
    · exact ran
    · cases ran

end Accessors
