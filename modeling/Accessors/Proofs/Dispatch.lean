import Accessors.Proofs.Alteration
import Accessors.Proofs.EntryAssignment

/-! What evaluating an instruction changes, when no entity is met: only what can be reached
from the current value, however deep a path goes. Each evaluation changes something at most
once, and it does so last. So one that fails has changed nothing, and neither has one whose
outcome is for the property to write, unless the instruction is a method that changes its
receiver and gives its result to be written. -/

namespace Accessors

def changesReceiver (name : String) : Prop :=
  name ∈ SequenceMethod.changing ∨ (dateBehavior.property? name).isSome

/-- An instruction that calls such a method and takes its result for the new value. -/
def Value.isChange (v : Value) : Prop :=
  ∃ text name, v = .str text ∧ Instruction.parse text = .method name true ∧ changesReceiver name

namespace World

/-- How a method may leave a world: with nothing changed, or, as a change of its receiver, with
some objects changed; a date gives itself back then. -/
def Applied (S : Ref → Prop) (change : Prop) (current : Value) (w : World) : Ending Value → Prop
  | .ok v w' => w.Grows w' ∨ change ∧ w.Alters S w' ∧ ∀ r, current = .date r → v = current
  | .error _ w' => w.Grows w'

def Effect (S : Ref → Prop) (change : Prop) (current : Value) (w : World) :
    Ending Outcome → Prop
  | .ok (.read _) w' => w.Alters S w'
  | .ok (.write v) w' => w.Applied S change current (.ok v w')
  | .ok .request w' => w.Grows w'
  | .ok .done w' => w.Alters S w'
  | .error _ w' => w.Grows w'

variable {S S' : Ref → Prop} {change change' : Prop} {current v : Value} {w : World}

theorem Applied.alters {w' : World} (h : w.Applied S change current (.ok v w')) :
    w.Alters S w' := by
  rcases h with grows | ⟨_, alters, _⟩
  · exact grows.alters
  · exact alters

theorem Applied.effect {a : Action Value} (h : w.Applied S change current (a.run w))
    (assign : Bool) :
    w.Effect S (assign = true ∧ change) current
      ((a >>= fun result => pure (Outcome.of result assign)).run w) := by
  refine run_bind_of h (fun stop w' grown => grown) fun v w' applied => ?_
  cases assign with
  | false => exact applied.alters
  | true => exact applied.imp id fun changed => ⟨⟨rfl, changed.1⟩, changed.2⟩

theorem Effect.alters {e : Ending Outcome} (h : w.Effect S change current e) :
    w.Alters S e.world := by
  cases e with
  | error stop w' => exact Grows.alters h
  | ok outcome w' =>
    cases outcome with
    | read v => exact h
    | write v => exact Applied.alters h
    | request => exact Grows.alters h
    | done => exact h

theorem Effect.of_grows {e : Ending Outcome} (grown : w.Grows e.world) :
    w.Effect S change current e := by
  cases e with
  | error stop w' => exact grown
  | ok outcome w' =>
    cases outcome with
    | read v | done => exact grown.alters
    | write v => exact .inl grown
    | request => exact grown

theorem Applied.of_grows {e : Ending Value} (grown : w.Grows e.world) :
    w.Applied S change current e := by
  cases e with
  | error stop w' => exact grown
  | ok v w' => exact .inl grown

theorem Applied.of_spares {e : Ending Value} (h : w.Spares S e) (changes : change)
    (wider : ∀ r, S r → S' r) (undated : ∀ r, current ≠ .date r) :
    w.Applied S' change current e := by
  cases e with
  | error stop w' => exact h
  | ok v w' =>
    exact .inr ⟨changes, World.Alters.mono h wider, fun r same => absurd same (undated r)⟩

theorem Applied.imp {e : Ending Value} (h : w.Applied S change current e)
    (counts : change → change') : w.Applied S change' current e := by
  cases e with
  | error stop w' => exact h
  | ok v w' => exact Or.imp id (fun changed => ⟨counts changed.1, changed.2⟩) h

theorem Effect.grows {e : Ending Outcome} (h : w.Effect (w.Reaches v) change v e)
    (bare : v.handle? = none) : w.Grows e.world := by
  have none := Reaches.not_of_bare (w := w) bare
  cases e with
  | error stop w' => exact h
  | ok outcome w' =>
    cases outcome with
    | read u => exact World.Alters.grows h none
    | write u => exact (Applied.alters h).grows none
    | request => exact h
    | done => exact World.Alters.grows h none

theorem Effect.imp {e : Ending Outcome} (h : w.Effect S change current e)
    (counts : change → change') : w.Effect S change' current e := by
  cases e with
  | error stop w' => exact h
  | ok outcome w' =>
    cases outcome with
    | write v => exact Or.imp id (fun changed => ⟨counts changed.1, changed.2⟩) h
    | _ => exact h

theorem Effect.entry {e : Ending Outcome} (h : w.Effect S change v e)
    (wider : ∀ r, S r → S' r) (undated : ∀ r, current ≠ .date r) :
    w.Effect S' change current e := by
  cases e with
  | error stop w' => exact h
  | ok outcome w' =>
    cases outcome with
    | read u => exact World.Alters.mono h wider
    | write u =>
      have changed (c : change ∧ w.Alters S w' ∧ ∀ r, v = .date r → u = v) :
          change ∧ w.Alters S' w' ∧ ∀ r, current = .date r → u = current :=
        ⟨c.1, c.2.1.mono wider, fun r same => absurd same (undated r)⟩
      exact Or.imp id changed h
    | request => exact h
    | done => exact World.Alters.mono h wider

theorem getKey_held (w : World) {c : Value} (plain : c.isEntity = false) (key : Value) :
    (w.getKey c key).handle? = none ∨ ∃ r, c.handle? = some r ∧ w.getKey c key ∈ w.held r := by
  have orUndefined {x : Option Value} {held : List Value} (h : ∀ u, x = some u → u ∈ held) :
      (x.getD .undefined).handle? = none ∨ x.getD .undefined ∈ held := by
    cases x with
    | none => exact .inl rfl
    | some u => exact .inr (h u rfl)
  cases c with
  | seq r =>
    unfold getKey
    dsimp only
    split
    · exact .inl rfl
    · refine (orUndefined fun u found => ?_).imp id fun held => ⟨r, rfl, held⟩
      obtain ⟨place, _, found⟩ := Option.bind_eq_some_iff.mp found
      exact mem_held_of_items (Array.mem_toList_iff.mpr (Array.mem_of_getElem? found))
  | record r =>
    refine (orUndefined fun u found => ?_).imp id fun held => ⟨r, rfl, held⟩
    exact mem_held_of_fields (Table.mem_values_of_get? found)
  | entity r => cases plain
  | _ => exact .inl rfl

theorem EntityFree.getKey (free : w.EntityFree v) (key : Value) :
    w.EntityFree (w.getKey v key) := by
  rcases w.getKey_held (free v (.self v)) key with bare | ⟨r, handle, held⟩
  · exact .scalar bare
  · exact free.inside handle held

theorem Reaches.of_getKey {key : Value} {s : Ref} (plain : v.isEntity = false)
    (h : w.Reaches (w.getKey v key) s) : w.Reaches v s := by
  rcases w.getKey_held plain key with bare | ⟨r, handle, held⟩
  · exact absurd h (Reaches.not_of_bare bare s)
  · exact .inside handle held h

end World

def NextSpares (change : Prop) (next : Value → Option Constructor → Action Outcome) : Prop :=
  ∀ (w : World) v owner, w.EntityFree v → NativeOwner owner →
    w.Effect (w.Reaches v) change v ((next v owner).run w)

def CallSpares (current : Value) (call : Property → Action Value) : Prop :=
  ∀ id field (w : World),
    w.Applied (w.Reaches current) True current ((call (DateField.property id field)).run w)

section
variable {change : Prop} {next : Value → Option Constructor → Action Outcome}

theorem DateField.write_applied (field : DateField) {w w' : World} (grows : w.Grows w')
    (this value : Value) :
    w.Applied (w.Reaches this) True this
      ((field.write this value >>= fun _ => pure this).run w') := by
  have spares := field.write_spares this value w'
  have reached (r : Ref) (date : this = .date r) : w.Reaches this r := .start (by rw [date]; rfl)
  refine World.run_bind_of spares (fun stop w'' grown => grows.trans grown) fun u w'' altered => ?_
  have altered : w.Alters (w.Reaches this) w'' :=
    grows.then_alters (World.Alters.mono altered reached)
  exact .inr ⟨trivial, altered, fun _ _ => rfl⟩

/-- What a part of a date reads as has nothing to change, so whatever is evaluated on it, nothing
has been changed before its outcome is handled. -/
theorem DateField.evaluate_applied (field : DateField) (this : Value)
    (hnext : NextSpares change next) {w : World} {finish : Outcome → Action Value}
    (finished : ∀ outcome w', w.Grows w' →
      w.Applied (w.Reaches this) True this ((finish outcome).run w')) :
    w.Applied (w.Reaches this) True this
      ((field.read this >>= fun v => next v none >>= finish).run w) := by
  rw [EStateM.run_bind]
  rcases field.read_cases this w with ⟨n, read⟩ | ⟨stop, read⟩
  · rw [read]
    have grown := (hnext w (.number n) none (.scalar rfl) .none).grows rfl
    exact World.run_bind_of (P := fun e => w.Grows e.world) grown
      (fun stop w' grown => grown) finished
  · rw [read]
    exact .refl w

theorem DateField.invoke_applied (e : Engine) (id : Nat) (field : DateField) (this : Value)
    (args : List Value) (hnext : NextSpares change next) (w : World) :
    w.Applied (w.Reaches this) True this
      (((field.property id).kind.invoke e this args next).run w) := by
  have unchanged {a : Action Value} {w' : World} (grown : w.Grows w') (grows : Growing a) :
      w.Applied (w.Reaches this) True this (a.run w') := .of_grows (grown.trans (grows w'))
  have custom (field : DateField) : w.Applied (w.Reaches this) True this
      (((PropertyKind.custom (.dateField field) (.dateField field)).invoke e this args next).run w) := by
    cases args with
    | nil => exact unchanged (.refl w) (.bind (field.read_growing this) .pure)
    | cons key rest =>
      refine field.evaluate_applied this hnext fun outcome w' grown => ?_
      cases outcome with
      | read v => exact unchanged grown (.pure v)
      | write v => exact field.write_applied grown this v
      | request => exact field.write_applied grown this key
      | done => exact unchanged grown (.pure this)
  cases field with
  | part p => exact custom (.part p)
  | time => exact custom .time
  | weekday =>
    cases args with
    | nil => exact unchanged (.refl w) (.bind (DateField.weekday.read_growing this) .pure)
    | cons key rest =>
      refine DateField.weekday.evaluate_applied this hnext fun outcome w' grown => ?_
      have refused : Growing (reportReadOnlyWrite >>= fun _ => pure this) :=
        .bind (.report _ _) fun _ => .pure this
      cases outcome with
      | read v => exact unchanged grown (.pure v)
      | write v => exact unchanged grown refused
      | request => exact unchanged grown refused
      | done => exact unchanged grown (.pure this)

theorem applyMethod_effect (e : Engine) {current : Value} {w : World}
    (free : w.EntityFree current) (name : String) (assign : Bool) (args : List Value)
    {owner : Option Constructor} (native : NativeOwner owner) {call : Property → Action Value}
    (hcall : CallSpares current call) :
    w.Effect (w.Reaches current) (assign = true ∧ changesReceiver name) current
      ((applyMethod e current name assign args owner call).run w) := by
  have plain := free current (.self current)
  have own := w.ownMethod?_plain plain name
  unfold applyMethod
  rw [EStateM.run_bind, EStateM.run_get]
  dsimp only
  split
  · split
    · rename_i c
      cases c with
      | native t =>
        have made : Growing (do return Outcome.write (← t.construct args)) :=
          .bind (t.construct_growing args) fun v => .pure _
        exact .of_grows (made w)
      | entity t => exact absurd rfl (native t)
    · exact World.Grows.refl w
  · simp only [own, native.method? w]
    split
    · rename_i p found
      have listed := native.findProperty? w plain found
      obtain ⟨id, field, rfl⟩ := dateBehavior_property? listed
      have changes : changesReceiver name := .inr (by rw [listed]; rfl)
      exact ((hcall id field w).imp fun _ => changes).effect assign
    · split
      · rename_i f found
        rcases builtin_growing_or_changing found args with growing | ⟨r, rfl, listed, spares⟩
        · exact World.Applied.effect (.of_grows (growing w)) assign
        · have reached (s : Ref) (same : r = s) : w.Reaches (.seq r) s :=
            .start (congrArg some same)
          have undated (s : Ref) : Value.seq r ≠ .date s := nofun
          exact World.Applied.effect (.of_spares (spares w) (.inl listed) reached undated) assign
      · split
        · rename_i f found
          exact World.Applied.effect (.of_grows (Utility.growing found _ w)) assign
        · exact World.Grows.refl w

theorem applyOperator_effect (e : Engine) {current : Value} {w : World} {S : Ref → Prop}
    (plain : current.isEntity = false) (op : Operator) (assign : Bool) {args : List Value}
    (given : ∀ v ∈ args, v.isEntity = false) {owner : Option Constructor}
    (native : NativeOwner owner) :
    w.Effect S change current ((applyOperator e current op assign args owner).run w) := by
  have steps := applySteps_eq e op (w.ownMethod?_plain plain op.symbol) fun v mem =>
    w.ownMethod?_plain (given v mem) op.symbol
  unfold applyOperator
  rw [EStateM.run_bind, EStateM.run_get]
  simp only [native.override? w]
  rw [EStateM.run_bind, steps]
  cases assign with
  | false => exact (World.Grows.refl w).alters
  | true => exact .inl (.refl w)

theorem accessKey_effect {current : Value} {w : World} (free : w.EntityFree current)
    (keyed : current.isKeyed = true) (key : Value) (args : List Value)
    (hnext : NextSpares change next) :
    w.Effect (w.Reaches current) change current ((accessKey current key args next).run w) := by
  have plain := free current (.self current)
  have undated (r : Ref) : current ≠ .date r := by
    rintro rfl
    cases keyed
  have entry : w.Effect (w.Reaches current) change current
      ((next (w.getKey current key) none).run w) :=
    (hnext w _ none (free.getKey key) .none).entry (fun _ reaches => reaches.of_getKey plain)
      undated
  unfold accessKey
  rw [EStateM.run_bind, EStateM.run_get]
  dsimp only
  split
  · exact (World.Grows.refl w).alters
  · rename_i last
    split
    · exact entry
    · exact World.run_bind_of (setKey_spares plain key last w) (fun stop w' grown => grown)
        fun u w' altered => World.Alters.mono altered fun _ => .start
  · split
    · exact World.Grows.refl w
    · exact entry

theorem evaluateKey_effect {current : Value} {w : World} (free : w.EntityFree current)
    (key : Value) (args : List Value) {owner : Option Constructor} (native : NativeOwner owner)
    (hnext : NextSpares change next) {call : Property → Action Value}
    (hcall : CallSpares current call) :
    w.Effect (w.Reaches current) change current
      ((evaluateKey current key args owner next call).run w) := by
  have access : w.Effect (w.Reaches current) change current
      ((if current.isKeyed then accessKey current key args next else pure .request).run w) := by
    split
    · rename_i keyed
      exact accessKey_effect free keyed key args hnext
    · exact World.Grows.refl w
  cases key with
  | str name =>
    unfold evaluateKey
    dsimp only
    rw [EStateM.run_bind, EStateM.run_get]
    dsimp only
    split
    · rename_i p found
      obtain ⟨id, field, rfl⟩ :=
        dateBehavior_property? (native.findProperty? w (free current (.self current)) found)
      refine World.run_bind_of (hcall id field w) (fun stop w' grown => grown)
        fun result w' applied => ?_
      split <;> exact World.Applied.alters applied
    · exact access
  | number n => exact access
  | _ => exact World.Grows.refl w

theorem evaluateWith_effect (e : Engine) {current : Value} {w : World}
    (free : w.EntityFree current) (key : Value) {args : List Value}
    (given : ∀ v ∈ args, v.isEntity = false) {owner : Option Constructor}
    (native : NativeOwner owner) (hnext : NextSpares change next) {call : Property → Action Value}
    (hcall : CallSpares current call) :
    w.Effect (w.Reaches current) (key.isChange ∨ change) current
      ((evaluateWith e current key args owner next call).run w) := by
  have keyed := (evaluateKey_effect free key args native hnext hcall).imp
    (.inr : change → key.isChange ∨ change)
  unfold evaluateWith
  split
  · exact World.Grows.refl w
  · cases key with
    | str text =>
      dsimp only
      split
      · rename_i name assign reads
        refine (applyMethod_effect e free name assign args native hcall).imp fun asked => .inl ?_
        exact ⟨text, name, rfl, asked.1 ▸ reads, asked.2⟩
      · split
        · exact .inl (.refl w)
        · exact World.Grows.refl w
      · split
        · exact keyed
        · exact applyOperator_effect e (free current (.self current)) _ _ given native
      · exact keyed
    | _ => exact keyed

end

/-- Evaluating an instruction on a value without entities changes at most what can be reached
from it. Nothing has been changed when it fails, or leaves it to the property to store what
was given; and nothing, or by a change, when the property is to store a result. -/
theorem evaluate_effect (e : Engine) {current : Value} {w : World} (free : w.EntityFree current)
    (key : Value) {args : List Value} (given : ∀ v ∈ args, v.isEntity = false)
    {owner : Option Constructor} (native : NativeOwner owner) :
    w.Effect (w.Reaches current) (∃ v ∈ key :: args, v.isChange) current
      ((evaluate e current key args owner).run w) := by
  induction args generalizing current key owner w with
  | nil =>
    unfold evaluate
    have hnext : NextSpares False fun _ _ => pure .done :=
      fun w v _ _ _ => .of_grows (.refl w)
    refine (evaluateWith_effect e free key given native hnext fun id field w =>
      DateField.invoke_applied e id field current [] hnext w).imp fun change => ?_
    simpa using change
  | cons first rest ih =>
    unfold evaluate
    have others := (List.forall_mem_cons.mp given).2
    have hnext : NextSpares (∃ v ∈ first :: rest, v.isChange)
        fun inner owner => evaluate e inner first rest owner :=
      fun w inner owner free native => ih free first others native
    refine (evaluateWith_effect e free key given native hnext fun id field w =>
      DateField.invoke_applied e id field current (first :: rest) hnext w).imp fun change => ?_
    simpa using change

end Accessors
