import Accessors.Proofs.EntryAssignment

/-! Paths of keys that end at a value with nothing under it. Where the entry that a path
meets is nullish, the call fails. Where it is a scalar, what comes back is a plain write
request: it names no receiver, and the property at the root, however many keys above, takes
it for its own and stores the first key of the path in place of the collection. -/

namespace Accessors

def Value.isInstruction : Value → Bool
  | .str text => decide (Instruction.parse text ≠ .key text)
  | _ => false

namespace World

/-- Nothing of the value answers to the key: there are no entries, no property has that name,
and the key is no instruction. -/
structure Inert (w : World) (v key : Value) : Prop where
  unkeyed : v.isKeyed = false
  plain : key.isInstruction = false
  unnamed : ∀ name, key = .str name → w.findProperty? v none name = none

/-- The path of a key and further arguments meets an entry, at some key of it, where it cannot go
on although arguments are left: the entry is nullish, or nothing of it answers to the next one. -/
inductive Blocked (w : World) : Value → Value → List Value → Value → Value → Prop
  | here {c key : Value} (first second : Value) (rest : List Value) (passes : w.Passes c key)
    (stuck : (w.getKey c key).isNullish = true ∨ w.Inert (w.getKey c key) first) :
    Blocked w c key (first :: second :: rest) key (w.getKey c key)
  | further {c key first second spot v : Value} {rest : List Value} (passes : w.Passes c key)
    (present : (w.getKey c key).isNullish = false)
    (later : Blocked w (w.getKey c key) first (second :: rest) spot v) :
    Blocked w c key (first :: second :: rest) spot v

theorem inert_scalar (w : World) {v key : Value} (scalar : v.isScalar = true)
    (plain : key.isInstruction = false) : w.Inert v key where
  unkeyed := by cases v <;> first | rfl | cases scalar
  plain := plain
  unnamed name _ := by cases v <;> first | rfl | cases scalar

end World

theorem accessKey_nullish {w : World} {c key : Value}
    (nullish : (w.getKey c key).isNullish = true) (first second : Value) (rest : List Value)
    (next : Value → Option Constructor → Action Outcome) :
    (accessKey c key (first :: second :: rest) next).run w =
      .error (.error (.invalidKey (w.display key))) w := by
  unfold accessKey
  rw [EStateM.run_bind, EStateM.run_get]
  simp only [nullish]
  rfl

theorem evaluateKey_inert {w : World} {v key : Value} (inert : w.Inert v key) (args : List Value)
    (next : Value → Option Constructor → Action Outcome) (call : Property → Action Value) :
    (evaluateKey v key args none next call).run w = .ok .request w := by
  unfold evaluateKey
  cases key with
  | str name =>
    dsimp only
    rw [EStateM.run_bind, EStateM.run_get]
    simp only [inert.unnamed name rfl, inert.unkeyed]
    rfl
  | number n =>
    simp only [inert.unkeyed]
    rfl
  | _ => rfl

theorem evaluate_inert (e : Engine) {w : World} {v key : Value} (inert : w.Inert v key)
    (args : List Value) : (evaluate e v key args none).run w = .ok .request w := by
  have with_next (next : Value → Option Constructor → Action Outcome)
      (call : Property → Action Value) :
      (evaluateWith e v key args none next call).run w = .ok .request w := by
    have asKey := evaluateKey_inert inert args next call
    unfold evaluateWith
    split
    · rfl
    · cases key with
      | str text =>
        have reads : Instruction.parse text = .key text :=
          Decidable.not_not.mp (of_decide_eq_false inert.plain)
        simp only [reads]
        exact asKey
      | _ => exact asKey
  cases args <;> exact with_next _ _

/-- However many keys the path has passed, the outcome at its blocked entry is the outcome of
the whole evaluation: an error for a nullish entry, else a write request. -/
theorem World.Blocked.evaluate {w : World} {c key spot v : Value} {args : List Value}
    (blocked : w.Blocked c key args spot v) (e : Engine) :
    (Accessors.evaluate e c key args none).run w =
      if v.isNullish then .error (.error (.invalidKey (w.display spot))) w
      else .ok .request w := by
  induction blocked with
  | @here c key first second rest passes stuck =>
    cases entry : (w.getKey c key).isNullish with
    | true =>
      unfold Accessors.evaluate
      rw [evaluateWith_passes e passes]
      exact accessKey_nullish entry first second rest _
    | false =>
      have inert : w.Inert (w.getKey c key) first := by
        rcases stuck with nullish | inert
        · rw [entry] at nullish
          cases nullish
        · exact inert
      rw [evaluate_passes e passes entry]
      exact evaluate_inert e inert (second :: rest)
  | further passes present later ih =>
    rw [evaluate_passes e passes present]
    exact ih

namespace Property

/-- The properties that keep what is written as it is, and how they do: basic ones in a slot,
custom ones with the function of their user. -/
inductive Keeps (e : Engine) (p : Property) : Value → (Value → Action Unit) → Prop
  | basic {slot : StorageKey} {default : Value} {policy : ClonePolicy}
    (kind : p.kind = .basic slot default policy) (r : Ref) :
    Keeps e p (.entity r) (setSlot r slot)
  | custom {g : Getter} {s : Setter} (kind : p.kind = .custom g s) (this : Value) :
    Keeps e p this (s.set e this)

def finish (this : Value) (write : Value → Action Unit) (key : Value) : Outcome → Action Value
  | .read v => pure v
  | .write v => do
    write v
    pure this
  | .request => do
    write key
    pure this
  | .done => pure this

theorem Keeps.invoke {e : Engine} {p : Property} {this : Value} {write : Value → Action Unit}
    (keeps : p.Keeps e this write) (key : Value) (args : List Value) :
    p.invoke e this (key :: args) = (do
      let c ← p.invoke e this []
      let outcome ← evaluate e c key args none
      finish this write key outcome) := by
  unfold Property.invoke
  cases keeps with
  | basic kind r =>
    simp only [kind, PropertyKind.invoke, receiver, pure_bind, bind_assoc]
    refine bind_congr fun c => bind_congr fun outcome => ?_
    cases outcome <;> rfl
  | custom kind this =>
    simp only [kind, PropertyKind.invoke, bind_assoc, pure_bind]
    refine bind_congr fun c => bind_congr fun outcome => ?_
    cases outcome <;> rfl

section
variable {e : Engine} {p : Property} {this : Value} {write : Value → Action Unit} {w w₁ w₂ : World}
  {c key : Value} {args : List Value}

theorem Keeps.run_failed (keeps : p.Keeps e this write)
    (reads : (p.invoke e this []).run w = .ok c w₁) {stop : Stop}
    (fails : (evaluate e c key args none).run w₁ = .error stop w₂) :
    (p.invoke e this (key :: args)).run w = .error stop w₂ := by
  rw [keeps.invoke, EStateM.run_bind, reads]
  dsimp only
  rw [EStateM.run_bind, fails]

theorem Keeps.run_requested (keeps : p.Keeps e this write)
    (reads : (p.invoke e this []).run w = .ok c w₁)
    (requests : (evaluate e c key args none).run w₁ = .ok .request w₂) :
    (p.invoke e this (key :: args)).run w = (write key >>= fun _ => pure this).run w₂ := by
  rw [keeps.invoke, EStateM.run_bind, reads]
  dsimp only
  rw [EStateM.run_bind, requests]
  rfl

end

end Property

namespace World

theorem Blocked.passes {w : World} {c key spot v : Value} {args : List Value}
    (blocked : w.Blocked c key args spot v) : w.Passes c key := by
  cases blocked <;> assumption

theorem Passes.ne {w : World} {c key : Value} (passes : w.Passes c key) : key ≠ c := by
  rintro rfl
  obtain ⟨keyed, plain, _⟩ := passes
  cases key with
  | seq r | record r | entity r => cases plain
  | _ => cases keyed

theorem setSlot_alone (w : World) {r : Ref} (slot : StorageKey) (v : Value)
    (stands : (w.instance? r).isSome) :
    (w.after (setSlot r slot v)).slot? r slot = some v ∧
      ∀ s, (w.after (setSlot r slot v)).items s = w.items s ∧
        (w.after (setSlot r slot v)).fields s = w.fields s := by
  have same := SameOn.setSlot w r slot v
  refine ⟨?_, fun s => ⟨?_, same.fields s trivial⟩⟩
  · rw [slot?_setSlot, if_pos ⟨rfl, rfl, stands⟩]
  · exact congrArg Array.toList (same.sequence s trivial)

end World

/-- A basic or custom property reads a collection in which a path is blocked. At a nullish entry
the call fails and leaves what the reading left. At any other the call returns as if the
path's first key alone had been written: a basic property holds the key from then on and no
longer the collection, whose content, like that of all others, stays. -/
theorem blocked_path_writes_first_key (e : Engine) {p : Property} {this : Value}
    {write : Value → Action Unit} (keeps : p.Keeps e this write) {w w₁ : World} {c : Value}
    (reads : (p.invoke e this []).run w = .ok c w₁) {key spot v : Value} {args : List Value}
    (blocked : w₁.Blocked c key args spot v) :
    (v.isNullish = true →
      (p.invoke e this (key :: args)).run w =
        .error (.error (.invalidKey (w₁.display spot))) w₁) ∧
    (v.isNullish = false →
      (p.invoke e this (key :: args)).run w = (write key >>= fun _ => pure this).run w₁ ∧
      ∀ slot default policy r, p.kind = .basic slot default policy → this = .entity r →
        (w₁.instance? r).isSome →
        let w₂ := w.after (p.invoke e this (key :: args))
        w₂.slot? r slot = some key ∧ w₂.slot? r slot ≠ some c ∧
          ∀ s, w₂.items s = w₁.items s ∧ w₂.fields s = w₁.fields s) := by
  have evaluated := blocked.evaluate e
  refine ⟨fun nullish => ?_, fun present => ?_⟩
  · rw [if_pos nullish] at evaluated
    exact keeps.run_failed reads evaluated
  · rw [if_neg (Bool.eq_false_iff.mp present)] at evaluated
    have written := keeps.run_requested reads evaluated
    refine ⟨written, fun slot default policy r kind receiver stands => ?_⟩
    subst receiver
    cases keeps with
    | custom other => cases kind.symm.trans other
    | basic same =>
      cases kind.symm.trans same
      have after : w.after (p.invoke e (.entity r) (key :: args)) =
          w₁.after (setSlot r slot key) := congrArg Ending.world written
      obtain ⟨stored, others⟩ := w₁.setSlot_alone slot key stands
      rw [after]
      refine ⟨stored, fun held => ?_, others⟩
      rw [stored] at held
      exact blocked.passes.ne (Option.some.inj held)

/-- A basic property, and an instance that keeps a record under it. -/
def recordProperty : Property := ⟨9, .basic (.generated 0) .undefined .identity⟩

def recordOwner (fields : Table Value) : World :=
  { World.initial with objects := #[.entity ⟨0, .empty, [(0, .record 1)]⟩, .record fields] }

/-- The path `x`, `a`, `b` where `x` is a number. -/
theorem path_through_number :
    let w := recordOwner (Table.ofList [("x", .number 1), ("y", .number 2)])
    let call := recordProperty.invoke (engine 1) (.entity 0) [.str "x", .str "a", .str "b"]
    call.run w = (setSlot 0 (.generated 0) (.str "x") >>= fun _ => pure (Value.entity 0)).run w ∧
      (w.after call).slot? 0 (.generated 0) = some (.str "x") ∧
      (w.after call).slot? 0 (.generated 0) ≠ some (.record 1) ∧
      ∀ s, (w.after call).items s = w.items s ∧ (w.after call).fields s = w.fields s := by
  intro w call
  have keeps : recordProperty.Keeps (engine 1) (.entity 0) (setSlot 0 (.generated 0)) :=
    .basic rfl 0
  have blocked : w.Blocked (.record 1) (.str "x") [.str "a", .str "b"] (.str "x") (.number 1) :=
    .here (.str "a") (.str "b") [] (w.passes_container rfl (by decide))
      (.inr (w.inert_scalar rfl (by decide)))
  obtain ⟨written, root⟩ :=
    (blocked_path_writes_first_key (engine 1) (w := w) keeps rfl blocked).2 rfl
  exact ⟨written, root _ _ _ 0 rfl rfl rfl⟩

/-- After that call the slot does not hold the record. -/
theorem path_through_number_replaces_record :
    let w := recordOwner (Table.ofList [("x", .number 1), ("y", .number 2)])
    let call := recordProperty.invoke (engine 1) (.entity 0) [.str "x", .str "a", .str "b"]
    w.slot? 0 (.generated 0) = some (.record 1) ∧
      (w.getKey (.record 1) (.str "x")).isScalar = true ∧
      ¬ (w.after call).slot? 0 (.generated 0) = some (.record 1) := by
  intro w call
  refine ⟨rfl, rfl, fun held => ?_⟩
  have blocked : w.Blocked (.record 1) (.str "x") [.str "a", .str "b"] (.str "x") (.number 1) :=
    .here (.str "a") (.str "b") [] (w.passes_container rfl (by decide))
      (.inr (w.inert_scalar rfl (by decide)))
  have request := blocked.evaluate (engine 1)
  have stored : (w.after call).slot? 0 (.generated 0) = some (.str "x") := by
    unfold World.after
    rw [invoke_basic_eq (engine 1) (p := recordProperty) (w := w) rfl rfl request]
    exact (w.setSlot_alone (.generated 0) (.str "x") rfl).1
  rw [stored] at held
  cases held

end Accessors
