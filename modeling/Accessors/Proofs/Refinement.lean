import Accessors.Proofs.ReadOnlySlot

/-! Engines that do as others do, but may stop more often. Where running functions and reading
nested values in one engine ends well only if it ends in the same way in another, so does all
that is done with the two: reading, calling and writing properties, and evaluating arguments. -/

namespace Accessors

/-- Where the first action ends well, the second one does the same. -/
def Refines {α : Type} (a b : Action α) : Prop :=
  ∀ w v w', a.run w = .ok v w' → b.run w = .ok v w'

namespace Refines
variable {α β : Type}

theorem refl (a : Action α) : Refines a a := fun _ _ _ ran => ran

theorem bind {a b : Action α} {k l : α → Action β} (first : Refines a b)
    (next : ∀ v, Refines (k v) (l v)) : Refines (a >>= k) (b >>= l) := by
  intro w u w' ran
  obtain ⟨v, w₁, begun, ended⟩ := World.run_bind_ok ran
  rw [EStateM.run_bind, first w v w₁ begun]
  exact next v w₁ u w' ended

theorem after {a : Action α} {k l : α → Action β} (next : ∀ v, Refines (k v) (l v)) :
    Refines (a >>= k) (a >>= l) :=
  bind (refl a) next

end Refines

namespace PropertyKind

def Descends : PropertyKind → Prop
  | .constant _ | .writeOnly _ => False
  | _ => True

def keep (e : Engine) (kind : PropertyKind) (this v : Value) (args : List Value) : Action Unit :=
  match kind with
  | custom _ s => s.set e this v
  | basic slot _ _ => do setSlot (← receiver this) slot v
  | typed slot c _ => do
    let r ← receiver this
    place e r slot (← coerce e c v args)
  | _ => reportReadOnlyWrite

/-- Ends a call on any value by what came of its instruction. -/
def settle (e : Engine) (kind : PropertyKind) (this key : Value) (rest : List Value) :
    Outcome → Action Value
  | .read v => pure v
  | .write v => do
    keep e kind this v [v]
    pure this
  | .request => do
    keep e kind this key (key :: rest)
    pure this
  | .done => pure this

end PropertyKind

theorem Property.invoke_descends {p : Property} (descends : p.kind.Descends) (e : Engine)
    (this key : Value) (rest : List Value) :
    p.invoke e this (key :: rest) = (do
      let v ← p.invoke e this []
      let outcome ← evaluate e v key rest p.kind.owner
      p.kind.settle e this key rest outcome) := by
  unfold invoke
  generalize p.kind = kind at descends ⊢
  cases kind with
  | constant v => cases descends
  | writeOnly side => cases descends
  | readOnly side | custom g s =>
    simp only [PropertyKind.invoke, PropertyKind.owner, bind_assoc, pure_bind]
    refine bind_congr fun v => bind_congr fun outcome => ?_
    cases outcome <;> rfl
  | basic slot default policy =>
    cases this with
    | entity r =>
      simp only [PropertyKind.invoke, PropertyKind.owner, receiver, pure_bind, bind_assoc]
      refine bind_congr fun v => bind_congr fun outcome => ?_
      cases outcome <;> rfl
    | _ => rfl
  | typed slot c defaults =>
    cases this with
    | entity r =>
      simp only [PropertyKind.invoke, PropertyKind.owner, receiver, pure_bind, bind_assoc]
      refine bind_congr fun v => bind_congr fun outcome => ?_
      cases outcome <;>
        simp [PropertyKind.settle, PropertyKind.keep, receiver]
    | _ => rfl

structure Engine.Refines (e e' : Engine) : Prop where
  run : ∀ body this args, Accessors.Refines (e.run body this args) (e'.run body this args)
  readNested : ∀ p this, Accessors.Refines (e.readNested p this) (e'.readNested p this)

section
variable {e e' : Engine} (h : e.Refines e')
include h

theorem Getter.get_refines (g : Getter) (this : Value) :
    Refines (g.get e this) (g.get e' this) := by
  cases g with
  | script body => exact h.run body this []
  | dateField field => exact .refl _

theorem Setter.set_refines (s : Setter) (this v : Value) :
    Refines (s.set e this v) (s.set e' this v) := by
  cases s with
  | script body => exact .bind (h.run body this [v]) fun _ => .refl _
  | dateField field => exact .refl _

theorem Constructor.construct_refines (c : Constructor) (args : List Value) :
    Refines (c.construct e args) (c.construct e' args) := by
  cases c with
  | native t => exact .refl _
  | entity t =>
    refine .after fun r => .after fun w => ?_
    cases (w.typeNamed t).initializer with
    | some body => exact .bind (h.run body _ args) fun _ => .refl _
    | none => exact .refl _

theorem coerce_refines (c : Constructor) (v : Value) (args : List Value) :
    Refines (coerce e c v args) (coerce e' c v args) := by
  refine .after fun w => ?_
  split
  · exact .refl _
  · exact c.construct_refines h args

theorem unwrapNested_refines (nested : Value) :
    Refines (unwrapNested e nested) (unwrapNested e' nested) := by
  cases nested with
  | entity r =>
    refine .after fun w => ?_
    split
    · split
      · exact h.readNested _ _
      · exact .refl _
    · exact .refl _
  | _ => exact .refl _

theorem attachParent_refines (nested owner : Value) :
    Refines (attachParent e nested owner) (attachParent e' nested owner) := by
  cases nested with
  | entity r =>
    refine .after fun w => ?_
    split
    · exact .bind (h.run _ _ _) fun _ => .refl _
    · exact .refl _
  | _ => exact .refl _

theorem place_refines (r : Ref) (key : StorageKey) (v : Value) :
    Refines (place e r key v) (place e' r key v) := by
  cases v with
  | entity m =>
    rw [place_entity, place_entity]
    exact .after fun _ => .after fun _ => .bind (attachParent_refines h _ _) fun _ => .refl _
  | _ => exact .refl _

omit h in
theorem currentSlot_refines (r : Ref) (key : StorageKey) {make make' : Action Value}
    (made : Refines make make') :
    Refines (currentSlot r key make) (currentSlot r key make') := by
  refine .after fun w => ?_
  split
  · split
    · exact made
    · exact .refl _
  · exact made

theorem readTyped_refines (r : Ref) (key : StorageKey) (c : Constructor) (defaults : List Value) :
    Refines (readTyped e r key c defaults) (readTyped e' r key c defaults) := by
  refine .bind (currentSlot_refines r key ?_) fun nested => unwrapNested_refines h nested
  exact .bind (c.construct_refines h defaults) fun v =>
    .bind (place_refines h r key v) fun _ => .refl _

theorem ReadSide.read_refines (side : ReadSide) (this : Value) :
    Refines (side.read e this) (side.read e' this) := by
  cases side with
  | getter g => exact g.get_refines h this
  | slot key => exact .refl _

theorem WriteSide.write_refines (side : WriteSide) (this v : Value) :
    Refines (side.write e this v) (side.write e' this v) := by
  cases side with
  | setter s => exact s.set_refines h this v
  | slot key => exact .refl _

theorem Property.read_refines (p : Property) (this : Value) :
    Refines (p.invoke e this []) (p.invoke e' this []) := by
  obtain ⟨id, kind⟩ := p
  cases kind with
  | readOnly side => exact .bind (side.read_refines h this) fun _ => .refl _
  | custom g s => exact .bind (g.get_refines h this) fun _ => .refl _
  | typed key c defaults =>
    exact .after fun r => .bind (readTyped_refines h r key c defaults) fun _ => .refl _
  | _ => exact .refl _

theorem PropertyKind.settle_refines (kind : PropertyKind) (this key : Value) (rest : List Value)
    (outcome : Outcome) :
    Refines (kind.settle e this key rest outcome) (kind.settle e' this key rest outcome) := by
  have kept (v : Value) (args : List Value) :
      Refines (kind.keep e this v args) (kind.keep e' this v args) := by
    cases kind with
    | custom g s => exact s.set_refines h this v
    | typed slot c defaults =>
      exact .after fun r => .bind (coerce_refines h c v args) fun u => place_refines h r slot u
    | _ => exact .refl _
  cases outcome with
  | write v => exact .bind (kept v [v]) fun _ => .refl _
  | request => exact .bind (kept key (key :: rest)) fun _ => .refl _
  | _ => exact .refl _

theorem Property.invoke_refines (p : Property) (this : Value) {args : List Value}
    (evaluated : ∀ key rest, args = key :: rest → ∀ v owner,
      Refines (evaluate e v key rest owner) (evaluate e' v key rest owner)) :
    Refines (p.invoke e this args) (p.invoke e' this args) := by
  cases args with
  | nil => exact p.read_refines h this
  | cons key rest =>
    have descended (descends : p.kind.Descends) :
        Refines (p.invoke e this (key :: rest)) (p.invoke e' this (key :: rest)) := by
      rw [p.invoke_descends descends, p.invoke_descends descends]
      exact .bind (p.read_refines h this) fun v => .bind (evaluated key rest rfl v _) fun outcome =>
        p.kind.settle_refines h this key rest outcome
    obtain ⟨id, kind⟩ := p
    cases kind with
    | constant v => exact .refl _
    | writeOnly side =>
      cases rest with
      | nil => exact .bind (side.write_refines h this key) fun _ => .refl _
      | cons _ _ => exact .refl _
    | _ => exact descended trivial

theorem applyOperator_refines (current : Value) (op : Operator) (assign : Bool)
    (args : List Value) (owner : Option Constructor) :
    Refines (applyOperator e current op assign args owner)
      (applyOperator e' current op assign args owner) := by
  have step (override : Option Script) (running operand : Value) :
      Refines (applyStep e op override running operand)
        (applyStep e' op override running operand) := by
    refine .after fun w => ?_
    split
    · exact h.run _ running [operand]
    · split
      · exact h.run _ .undefined [running, operand]
      · exact .refl _
  refine .after fun w => .bind ?_ fun _ => .refl _
  induction args generalizing current with
  | nil => exact .refl _
  | cons operand rest ih => exact .bind (step _ current operand) ih

theorem applyMethod_refines (current : Value) (name : String) (assign : Bool) (args : List Value)
    (owner : Option Constructor) {call call' : Property → Action Value}
    (called : ∀ p, Refines (call p) (call' p)) :
    Refines (applyMethod e current name assign args owner call)
      (applyMethod e' current name assign args owner call') := by
  have finish {a b : Action Value} (first : Refines a b) :
      Refines (a >>= fun result => pure (Outcome.of result assign))
        (b >>= fun result => pure (Outcome.of result assign)) :=
    .bind first fun _ => .refl _
  refine .after fun w => ?_
  dsimp only
  split
  · split
    · exact .bind (Constructor.construct_refines h _ args) fun _ => .refl _
    · exact .refl _
  · -- the six places that a name is looked for in
    split
    · exact finish (h.run _ current args)
    · split
      · exact finish (called _)
      · split
        · exact .refl _
        · split
          · exact finish (h.run _ current args)
          · split <;> exact .refl _

omit h in
theorem evaluateKey_refines (current key : Value) (args : List Value) (owner : Option Constructor)
    {next next' : Value → Option Constructor → Action Outcome}
    (inner : ∀ v owner, Refines (next v owner) (next' v owner))
    {call call' : Property → Action Value} (called : ∀ p, Refines (call p) (call' p)) :
    Refines (evaluateKey current key args owner next call)
      (evaluateKey current key args owner next' call') := by
  have accessed : Refines (if current.isKeyed then accessKey current key args next
      else pure .request) (if current.isKeyed then accessKey current key args next'
      else pure .request) := by
    split
    · refine .after fun w => ?_
      dsimp only
      split
      · exact .refl _
      · split
        · exact inner _ none
        · exact .refl _
      · split
        · exact .refl _
        · exact inner _ none
    · exact .refl _
  cases key with
  | str name =>
    refine .after fun w => ?_
    split
    · exact .bind (called _) fun _ => .refl _
    · exact accessed
  | number i => exact accessed
  | _ => exact .refl _

theorem evaluateWith_refines (current key : Value) (args : List Value) (owner : Option Constructor)
    {next next' : Value → Option Constructor → Action Outcome}
    (inner : ∀ v owner, Refines (next v owner) (next' v owner))
    {call call' : Property → Action Value} (called : ∀ p, Refines (call p) (call' p)) :
    Refines (evaluateWith e current key args owner next call)
      (evaluateWith e' current key args owner next' call') := by
  have plain := evaluateKey_refines current key args owner inner called
  unfold evaluateWith
  split
  · exact .refl _
  · split
    · split
      · exact applyMethod_refines h current _ _ args owner called
      · exact .refl _
      · split
        · exact plain
        · exact applyOperator_refines h current _ _ args owner
      · exact plain
    · exact plain

theorem evaluate_refines (current key : Value) (args : List Value) (owner : Option Constructor) :
    Refines (evaluate e current key args owner) (evaluate e' current key args owner) := by
  induction args generalizing current key owner with
  | nil =>
    rw [evaluate_eq, evaluate_eq]
    exact evaluateWith_refines h current key [] owner (fun _ _ => .refl _) fun p =>
      p.read_refines h current
  | cons first rest ih =>
    rw [evaluate_eq, evaluate_eq]
    refine evaluateWith_refines h current key _ owner (fun v owner => ih v first owner) fun p => ?_
    refine p.invoke_refines h current fun key others same v owner => ?_
    obtain ⟨rfl, rfl⟩ := List.cons.inj same
    exact ih v first owner

end

end Accessors
