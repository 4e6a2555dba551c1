import Accessors.Proofs.ReadOnlySlot
import Accessors.Proofs.SparedSlot

/-! Forwarding. A typed property over an entity type takes a call with arguments to a property
of the nested entity, and gives its owner back where that one gave back itself. On the way the
arguments may come back to the owner: over a slot of the nested entity, an entry or a function
of a user. Only there can they reach the slot that the nested entity is in. -/

namespace Accessors

namespace World
variable {w : World} {current key : Value} {owner : Option Constructor}

def addressed? (w : World) (current : Value) (owner : Option Constructor) (key : Value) :
    Option Property :=
  match key with
  | .str text =>
    match Instruction.parse text with
    | .method name _ =>
      match w.callee? current owner name with
      | some (.property p) => if name = "new" then none else some p
      | _ => none
    | .key _ => w.findProperty? current owner text
    | _ => none
  | _ => none

theorem addressed?_text {text : String} (plain : (Value.str text).isPlainKey = true) :
    w.addressed? current owner (.str text) = w.findProperty? current owner text := by
  have reads : Instruction.parse text = .key text := of_decide_eq_true plain
  simp only [addressed?, reads]

theorem addressed?_none (plain : key.isPlainKey = true)
    (unnamed : ∀ text, key = .str text → w.findProperty? current owner text = none) :
    w.addressed? current owner key = none := by
  cases key with
  | str text => rw [addressed?_text plain, unnamed text rfl]
  | _ => rfl

theorem builtin?_of_callee? {name : String} {f : Builtin}
    (stands : w.callee? current owner name = some (.builtin f)) :
    builtin? current name = some f := by
  simp only [callee?, Option.or_eq_some_iff, Option.map_eq_some_iff] at stands
  grind

theorem find?_of_callee? {name : String} {f : Utility}
    (stands : w.callee? current owner name = some (.utility f)) :
    Utility.find? name = some f := by
  simp only [callee?, Option.or_eq_some_iff, Option.map_eq_some_iff] at stands
  grind

end World

/-- Arguments by which a property gets a new value: a write-only one takes a single argument as it
is, any other one the outcome of a write, or of what is no instruction for the value that it has. -/
inductive Property.Takes (e : Engine) (p : Property) (w : World) (this : Value) :
    List Value → Prop
  | given {side : WriteSide} (kind : p.kind = .writeOnly side) (v : Value) :
    Takes e p w this [v]
  | outcome {key v : Value} {rest : List Value} {outcome : Outcome} {w₁ w₂ : World}
    (descends : p.kind.Descends) (reads : (p.invoke e this []).run w = .ok v w₁)
    (gives : (evaluate e v key rest p.kind.owner).run w₁ = .ok outcome w₂)
    (writes : outcome.isWrite = true) : Takes e p w this (key :: rest)

/-- Arguments that come back to the instance `o` and write its slot there: through a property
that keeps its value in it, or by its name. Until then each instruction goes on to an entry of
the current value, or to what a property reads. -/
inductive LeadsBack (e : Engine) (o : Ref) (slot : StorageKey) :
    World → Value → Option Constructor → List Value → Prop
  | stored {w : World} {owner : Option Constructor} {key : Value} {rest : List Value}
    {p : Property} (called : w.addressed? (.entity o) owner key = some p)
    (own : p.storageKey? = some slot) (writable : p.mode.isWritable = true)
    (takes : p.Takes e w (.entity o) rest) :
    LeadsBack e o slot w (.entity o) owner (key :: rest)
  | assigned {w : World} {owner : Option Constructor} {key last : Value}
    (plain : key.isPlainKey = true) (unnamed : w.addressed? (.entity o) owner key = none)
    (absent : w.hasKey (w.getKey (.entity o) key) last = false)
    (own : slot = .named (w.display key)) :
    LeadsBack e o slot w (.entity o) owner [key, last]
  | entry {w : World} {current : Value} {owner : Option Constructor} {key : Value}
    {rest : List Value} (plain : key.isPlainKey = true)
    (unnamed : w.addressed? current owner key = none)
    (later : LeadsBack e o slot w (w.getKey current key) none rest) :
    LeadsBack e o slot w current owner (key :: rest)
  | property {w w' : World} {current v : Value} {owner : Option Constructor} {key : Value}
    {rest : List Value} {p : Property} (called : w.addressed? current owner key = some p)
    (descends : p.kind.Descends)
    (reads : (p.invoke e current []).run w = .ok v w')
    (later : LeadsBack e o slot w' v p.kind.owner rest) :
    LeadsBack e o slot w current owner (key :: rest)

theorem Property.Takes.refines {e e' : Engine} (h : e.Refines e') {p : Property} {w : World}
    {this : Value} {args : List Value} (takes : p.Takes e w this args) :
    p.Takes e' w this args := by
  cases takes with
  | given kind v => exact .given kind v
  | outcome descends reads gives writes =>
    exact .outcome descends (p.read_refines h this _ _ _ reads)
      (evaluate_refines h _ _ _ _ _ _ _ gives) writes

theorem LeadsBack.several {e : Engine} {o : Ref} {slot : StorageKey} {w : World} {current : Value}
    {owner : Option Constructor} {args : List Value}
    (leads : LeadsBack e o slot w current owner args) : 2 ≤ args.length := by
  induction leads with
  | stored _ _ _ takes => cases takes <;> simp
  | assigned => simp
  | entry _ _ _ ih | property _ _ _ _ ih =>
    simp only [List.length_cons]
    omega

section
variable {o n : Ref} {slot : StorageKey} {w : World}

theorem setKey_nests {current key : Value} (last : Value)
    (elsewhere : current = .entity o → slot ≠ .named (w.display key))
    (held : w.Nests o slot n) : (w.after (setKey current key last)).Nests o slot n := by
  cases current with
  | entity r =>
    have other : ¬ (r = o ∧ .named (w.display key) = slot) := by
      rintro ⟨rfl, named⟩
      exact elsewhere rfl named.symm
    unfold setKey
    rw [World.after_look]
    exact Retains.setSlot other last w held
  | _ =>
    exact Retains.quiet (setKey_stays (Region.within_everything _) rfl
      (Region.within_everything last)) w held

theorem accessKey_nests {current key : Value} {args : List Value}
    {next : Value → Option Constructor → Action Outcome}
    (elsewhere : current = .entity o → ∀ last, args = [last] →
      w.hasKey (w.getKey current key) last = false → slot ≠ .named (w.display key))
    (evaluated : args ≠ [] → (w.after (next (w.getKey current key) none)).Nests o slot n)
    (held : w.Nests o slot n) : (w.after (accessKey current key args next)).Nests o slot n := by
  unfold accessKey
  rw [World.after_look]
  dsimp only
  split
  · exact held
  · rename_i last
    split
    · exact evaluated (List.cons_ne_nil _ _)
    · rename_i absent
      have set := setKey_nests last
        (fun here => elsewhere here last rfl (Bool.eq_false_iff.mpr absent)) held
      exact .bind set fun _ _ _ held' => held'
  · rename_i some _
    split
    · exact held
    · exact evaluated some

theorem evaluateKey_nests {current key : Value} {args : List Value} {owner : Option Constructor}
    {next : Value → Option Constructor → Action Outcome} {call : Property → Action Value}
    (invoked : ∀ text p, key = .str text → w.findProperty? current owner text = some p →
      (w.after (call p)).Nests o slot n)
    (accessed : (∀ text, key = .str text → w.findProperty? current owner text = none) →
      (w.after (accessKey current key args next)).Nests o slot n)
    (held : w.Nests o slot n) :
    (w.after (evaluateKey current key args owner next call)).Nests o slot n := by
  cases key with
  | str text =>
    unfold evaluateKey
    rw [World.after_look]
    cases found : w.findProperty? current owner text with
    | some p =>
      exact .bind (invoked text p rfl found) fun _ _ _ held' => held'
    | none =>
      dsimp only
      split
      · exact accessed fun _ same => by cases same; exact found
      · exact held
  | number i =>
    simp only [evaluateKey]
    split
    · exact accessed fun _ same => by cases same
    · exact held
  | _ => exact held

end

section
variable {o n : Ref} {slot : StorageKey} {e : Engine} {w : World} (he : e.Spares o slot n)
include he

omit he in
theorem Property.other_slot {p : Property} {this : Value}
    (elsewhere : this = .entity o → p.mode.isWritable = true → p.storageKey? ≠ some slot)
    {r : Ref} {key : StorageKey} (here : this = .entity r) (own : p.storageKey? = some key)
    (writable : p.mode.isWritable = true) : ¬ (r = o ∧ key = slot) := by
  rintro ⟨rfl, rfl⟩
  exact elsewhere here writable own

theorem PropertyKind.settle_retains {p : Property} {this : Value} {outcome : Outcome}
    (elsewhere : outcome.isWrite = true → this = .entity o → p.mode.isWritable = true →
      p.storageKey? ≠ some slot)
    (key : Value) (rest : List Value) :
    Retains o slot n (p.kind.settle e this key rest outcome) := by
  have kept (writes : outcome.isWrite = true) (v : Value) (args : List Value) :
      Retains o slot n (p.kind.keep e this v args >>= fun _ => pure this) := by
    refine .bind ?_ fun _ => .pure this
    obtain ⟨id, kind⟩ := p
    cases kind with
    | custom g s => exact s.set_retains he this v
    | basic k default policy =>
      cases this with
      | entity r =>
        have other : ¬ (r = o ∧ k = slot) := Property.other_slot (elsewhere writes) rfl rfl rfl
        exact Retains.setSlot other v
      | _ => exact .fail _
    | typed k c defaults =>
      cases this with
      | entity r =>
        have other : ¬ (r = o ∧ k = slot) := Property.other_slot (elsewhere writes) rfl rfl rfl
        have placed : Retains o slot n (coerce e c v args >>= fun u => place e r k u) :=
          .bind (coerce_retains he c v args) fun u => place_retains he other u
        exact placed
      | _ => exact .fail _
    | _ => exact .report _ _
  cases outcome with
  | read v => exact .pure v
  | write v => exact kept rfl v [v]
  | request => exact kept rfl key (key :: rest)
  | done => exact .pure this

theorem WriteSide.write_retains {p : Property} {side : WriteSide} {this : Value}
    (kind : p.kind = .writeOnly side)
    (elsewhere : this = .entity o → p.mode.isWritable = true → p.storageKey? ≠ some slot)
    (v : Value) : Retains o slot n (side.write e this v) := by
  cases side with
  | setter s => exact s.set_retains he this v
  | slot k =>
    cases this with
    | entity r =>
      obtain ⟨id, _⟩ := p
      cases kind
      exact Retains.setSlot (Property.other_slot elsewhere rfl rfl rfl) v
    | _ => exact .fail _

/-- A call of a property keeps the entity in the slot if the slot is not the property's own, or
gets no new value, and if evaluating the arguments keeps it. -/
theorem Property.invoke_nests {p : Property} {this key : Value} {rest : List Value}
    (elsewhere : p.Takes e w this (key :: rest) → this = .entity o → p.mode.isWritable = true →
      p.storageKey? ≠ some slot)
    (evaluated : ∀ v w', p.kind.Descends → (p.invoke e this []).run w = .ok v w' →
      w'.Nests o slot n → (w'.after (evaluate e v key rest p.kind.owner)).Nests o slot n)
    (held : w.Nests o slot n) : (w.after (p.invoke e this (key :: rest))).Nests o slot n := by
  have descended (descends : p.kind.Descends) :
      (w.after (p.invoke e this (key :: rest))).Nests o slot n := by
    rw [p.invoke_descends descends]
    refine .bind (p.read_retains he this w held) fun v w₁ ran held₁ => ?_
    refine .bind (evaluated v w₁ descends ran held₁) fun outcome w₂ ran₂ held₂ => ?_
    have apart (writes : outcome.isWrite = true) := elsewhere (.outcome descends ran ran₂ writes)
    exact PropertyKind.settle_retains he apart key rest w₂ held₂
  obtain ⟨id, kind⟩ := p
  cases kind with
  | constant v =>
    have reported : Retains o slot n (get >>= fun w : World =>
        reportConstantWrite (w.display v) >>= fun _ => pure this) :=
      .look fun _ => .bind (.report _ _) fun _ => .pure this
    exact reported w held
  | writeOnly side =>
    cases rest with
    | nil =>
      have written := side.write_retains he rfl (elsewhere (.given rfl key)) key
      exact Retains.bind written (fun _ => .pure this) w held
    | cons _ _ =>
      have reported : Retains o slot n (reportManyArguments >>= fun _ => pure Value.undefined) :=
        .bind (.report _ _) fun _ => .pure _
      exact reported w held
  | _ => exact descended trivial

theorem applyOperator_retains (current : Value) (op : Operator) (assign : Bool)
    (args : List Value) (owner : Option Constructor) :
    Retains o slot n (applyOperator e current op assign args owner) := by
  have step (override : Option Script) (running operand : Value) :
      Retains o slot n (applyStep e op override running operand) := by
    refine .look fun w => ?_
    split
    · exact he.run _ running [operand]
    · split
      · exact he.run _ .undefined [running, operand]
      · exact .pure _
  refine .look fun w => .bind ?_ fun _ => .pure _
  induction args generalizing current with
  | nil => exact .pure current
  | cons operand rest ih => exact .bind (step _ current operand) ih

theorem evaluate_method_nests {current : Value} {text name : String} {assign : Bool}
    (present : current.isNullish = false) (reads : Instruction.parse text = .method name assign)
    {args : List Value} {owner : Option Constructor}
    (invoked : ∀ p, name ≠ "new" → w.callee? current owner name = some (.property p) →
      (w.after (p.invoke e current args)).Nests o slot n)
    (held : w.Nests o slot n) :
    (w.after (evaluate e current (.str text) args owner)).Nests o slot n := by
  by_cases making : name = "new"
  · rw [evaluate_method e present reads]
    refine Retains.look (fun w => ?_) w held
    rw [if_pos making]
    split
    · exact .bind (Constructor.construct_retains he _ args) fun _ => .pure _
    · exact .fail _
  · unfold World.after
    rw [evaluate_method_run e present reads making]
    refine World.Nests.bind ?_ fun v w' _ held' => held'
    cases stands : w.callee? current owner name with
    | none => exact held
    | some callee =>
      cases callee with
      | script body => exact he.run body current args w held
      | property p => exact invoked p making stands
      | builtin f =>
        exact Retains.quiet (builtin_stays (World.builtin?_of_callee? stands) current args
          (Region.within_everything current) fun v _ => Region.within_everything v) w held
      | utility f =>
        exact Retains.quiet (Utility.stays (World.find?_of_callee? stands) (current :: args)
          fun v _ => Region.within_everything v) w held

/-- One level of it: evaluating an instruction keeps the entity in the slot if the property that
it calls does, and the entry that it goes on to or sets. -/
theorem evaluate_nests_here {current key : Value} {args : List Value} {owner : Option Constructor}
    (invoked : ∀ p, (args ≠ [] → w.addressed? current owner key = some p) →
      (w.after (p.invoke e current args)).Nests o slot n)
    (elsewhere : key.isPlainKey = true → w.addressed? current owner key = none →
      current = .entity o → ∀ last, args = [last] →
        w.hasKey (w.getKey current key) last = false → slot ≠ .named (w.display key))
    (inner : key.isPlainKey = true → w.addressed? current owner key = none →
      ∀ first rest, args = first :: rest →
        (w.after (evaluate e (w.getKey current key) first rest none)).Nests o slot n)
    (held : w.Nests o slot n) : (w.after (evaluate e current key args owner)).Nests o slot n := by
  -- a key calls the property it names, or goes to an entry if it names none
  have keyed (plainKey : args ≠ [] → key.isPlainKey = true) : (w.after (evaluateKey current key args
      owner (following e args) fun p => p.invoke e current args)).Nests o slot n := by
    refine evaluateKey_nests (fun text p same found => ?_) (fun unnamed => ?_) held
    · subst same
      refine invoked p fun some => ?_
      rw [World.addressed?_text (plainKey some)]
      exact found
    · have unaddressed (some : args ≠ []) := World.addressed?_none (plainKey some) unnamed
      refine accessKey_nests (fun here last same => ?_) (fun some => ?_) held
      · have some : args ≠ [] := by rw [same]; exact List.cons_ne_nil _ _
        exact elsewhere (plainKey some) (unaddressed some) here last same
      · obtain ⟨first, rest, same⟩ := List.exists_cons_of_ne_nil some
        have later := inner (plainKey some) (unaddressed some) first rest same
        subst same
        exact later
  cases present : current.isNullish with
  | true =>
    rw [evaluate_nullish e present]
    exact held
  | false =>
    cases key with
    | str text =>
      cases reads : Instruction.parse text with
      | method name assign =>
        refine evaluate_method_nests he present reads (fun p named stands => ?_) held
        refine invoked p fun _ => ?_
        simp only [World.addressed?, reads, stands, named, if_false]
      | literal l =>
        rw [evaluate_eq]
        simp only [evaluateWith, present, reads]
        cases args <;> exact held
      | operator op assign =>
        rw [evaluate_eq]
        simp only [evaluateWith, present, reads]
        cases args with
        | nil => exact keyed fun some => absurd rfl some
        | cons first rest => exact applyOperator_retains he current op assign _ owner w held
      | key name =>
        have plain : (Value.str text).isPlainKey = true := by
          rw [Instruction.key_of_parse reads] at reads
          exact decide_eq_true reads
        rw [evaluate_eq]
        simp only [evaluateWith, present, reads]
        exact keyed fun _ => plain
    | number i =>
      rw [evaluate_eq]
      simp only [evaluateWith, present]
      exact keyed fun _ => rfl
    | _ =>
      rw [evaluate_eq]
      simp only [evaluateWith, present]
      exact held

theorem evaluate_nests {e₀ : Engine} (refines : e.Refines e₀) {current key : Value}
    {args : List Value} {owner : Option Constructor}
    (apart : ¬ LeadsBack e₀ o slot w current owner (key :: args)) (held : w.Nests o slot n) :
    (w.after (evaluate e current key args owner)).Nests o slot n := by
  induction args generalizing w current key owner with
  | nil =>
    -- reading fills no slot that is filled
    refine evaluate_nests_here he (fun p _ => p.read_retains he current w held)
      (fun _ _ _ _ never => ?_) (fun _ _ _ _ never => ?_) held
    all_goals cases never
  | cons next others ih =>
    refine evaluate_nests_here he (fun p called => ?_)
      (fun plain unnamed here last same absent own => ?_)
      (fun plain unnamed first rest same => ?_) held
    · have called := called (List.cons_ne_nil _ _)
      refine p.invoke_nests he (fun takes here writable own => ?_)
        (fun v w' descends ran held' => ?_) held
      · subst here
        exact apart (.stored called own writable (takes.refines refines))
      · refine ih (fun leads => ?_) held'
        exact apart (.property called descends (p.read_refines refines current w v w' ran) leads)
    · obtain ⟨rfl, rfl⟩ := List.cons.inj same
      subst here
      exact apart (.assigned plain unnamed absent own)
    · obtain ⟨rfl, rfl⟩ := List.cons.inj same
      exact ih (fun leads => apart (.entry plain unnamed leads)) held

end

section
variable {w : World}

theorem World.typeOf_of_typeId {r : Ref} {t : TypeId} (typed : w.typeId? r = some t) :
    w.typeOf r = w.typeNamed t := by
  unfold typeOf
  rw [typed]
  rfl

theorem callMember_property (e : Engine) {r : Ref} {name : String} {p : Property}
    (found : (w.typeOf r).property? name = some p) (args : List Value) :
    (callMember e (.entity r) name args).run w = (p.invoke e (.entity r) args).run w := by
  unfold callMember
  rw [EStateM.run_bind, EStateM.run_get]
  simp only [found]

theorem Property.read_nested (e : Engine) {p : Property} {o n : Ref} {slot : StorageKey}
    {c : Constructor} {defaults : List Value} (typed : p.kind = .typed slot c defaults)
    (nested : w.Nests o slot n) (bare : (w.typeOf n).readable? "value" = none) :
    (p.invoke e (.entity o) []).run w = .ok (.entity n) w := by
  have unwrapped : (unwrapNested e (.entity n)).run w = .ok (.entity n) w := by
    unfold unwrapNested
    rw [EStateM.run_bind, EStateM.run_get]
    dsimp only
    split
    · rename_i value found
      have unreadable : value.mode.isReadable = false := by
        simpa [EntityType.readable?, found] using bare
      rw [if_neg (Bool.eq_false_iff.mp unreadable)]
      rfl
    · rfl
  rw [Property.read_typed e typed]
  unfold readTyped
  rw [EStateM.run_bind, currentSlot_filled nested rfl]
  exact unwrapped

theorem evaluate_found (e : Engine) {current : Value} (present : current.isNullish = false)
    {q text : String} (plain : Instruction.parse q = .key text) {owner : Option Constructor}
    {p : Property} (found : w.findProperty? current owner q = some p) (args : List Value) :
    (evaluate e current (.str q) args owner).run w =
      (p.invoke e current args >>= fun v =>
        pure (if v.same current then .done else .read v)).run w := by
  rw [evaluate_eq]
  simp only [evaluateWith, present, plain, evaluateKey]
  rw [if_neg Bool.false_ne_true, EStateM.run_bind, EStateM.run_get]
  simp only [found]

theorem evaluate_property (e : Engine) {n : Ref} {q text : String} {p : Property}
    (declared : (w.typeOf n).property? q = some p) (plain : Instruction.parse q = .key text)
    (args : List Value) (owner : Option Constructor) :
    (evaluate e (.entity n) (.str q) args owner).run w =
      (p.invoke e (.entity n) args >>= fun v =>
        pure (if v.same (.entity n) then .done else .read v)).run w := by
  have found : w.findProperty? (.entity n) owner q = some p := by
    simp [World.findProperty?, declared]
  exact evaluate_found e rfl plain found args

end

/-- A typed property whose slot holds an entity `n` of its type, which has no readable property
`value`, takes a call on to the property of `n` that the first argument names: with the same
effects and errors, whatever engine runs it, and with its own answer, but for the owner in
place of `n`. If an engine that refines this one and spares the slot runs the direct call alike, so
that no function of a user changed the slot, it holds `n` afterwards, unless the arguments came back
from `n` to the owner and wrote that slot there. -/
theorem typed_property_forwards {w : World} {o n : Ref} {t : TypeId} {name q text : String}
    {p r : Property} {slot : StorageKey} {defaults : List Value}
    (owned : (w.typeOf o).property? name = some p)
    (typed : p.kind = .typed slot (.entity t) defaults)
    (nested : w.slot? o slot = some (.entity n)) (member : w.typeId? n = some t)
    (bare : (w.typeNamed t).readable? "value" = none)
    (declared : (w.typeNamed t).property? q = some r) (plain : Instruction.parse q = .key text)
    (args : List Value) (e : Engine) :
    let direct := callMember e (.entity n) q args
    let forwarded := callMember e (.entity o) name (.str q :: args)
    (forwarded.run w = match direct.run w with
      | .ok v w' => .ok (if v.same (.entity n) then .entity o else v) w'
      | .error stop w' => .error stop w') ∧
    ∀ sparing : Engine, sparing.Spares o slot n → sparing.Refines e →
      (callMember sparing (.entity n) q args).run w = direct.run w →
      ¬ LeadsBack e o slot w (.entity n) (some (.entity t)) (.str q :: args) →
      (w.after forwarded).slot? o slot = some (.entity n) := by
  intro direct forwarded
  rw [← World.typeOf_of_typeId member] at bare declared
  have answers : forwarded.run w = match direct.run w with
      | .ok v w' => .ok (if v.same (.entity n) then .entity o else v) w'
      | .error stop w' => .error stop w' := by
    have descends : p.kind.Descends := by rw [typed]; trivial
    rw [callMember_property _ owned, callMember_property _ declared,
      p.invoke_descends descends, EStateM.run_bind, p.read_nested _ typed nested bare]
    dsimp only
    rw [EStateM.run_bind, evaluate_property _ declared plain, EStateM.run_bind]
    cases (r.invoke e (.entity n) args).run w with
    | ok v w' =>
      cases same : v.same (.entity n) <;> simp [same] <;> rfl
    | error stop w' => rfl
  refine ⟨answers, fun sparing spares refines spared apart => ?_⟩
  have kept := evaluate_nests spares refines apart nested
  -- the evaluation, the direct call and the forwarded call leave the same world
  have after : w.after forwarded =
      w.after (evaluate sparing (.entity n) (.str q) args (some (.entity t))) := by
    unfold World.after
    rw [answers, evaluate_property _ declared plain, EStateM.run_bind,
      ← callMember_property _ declared, spared]
    cases direct.run w <;> rfl
  rw [after]
  exact kept

/-- A note with a pitch, whose accidental is read and set by functions of a user. -/
def notedPitch : World :=
  let accidental : Property :=
    ⟨9, .custom (.script (.field .this "_a")) (.script (.setField .this "_a" (.argument 0)))⟩
  let pitch : Property := ⟨10, .typed (.generated 0) (.entity 0) []⟩
  { World.initial with
    types := #[
      { EntityType.bare "Pitch" with properties := Table.ofList [("accidental", accidental)] },
      { EntityType.bare "Note" with properties := Table.ofList [("pitch", pitch)] }]
    objects := #[.entity ⟨1, .empty, [(0, .entity 1)]⟩, .entity ⟨0, .empty, []⟩] }

/-- Setting the accidental through the note: the pitch has it then, the note has the pitch, and
the answer is the note. -/
theorem accidental_set_through_note :
    let w := notedPitch
    let forwarded := callMember (engine 1) (.entity 0) "pitch" [.str "accidental", .str "sharp"]
    (w.after forwarded).field 1 "_a" = .str "sharp" ∧
      (∃ w', (callMember (engine 1) (.entity 1) "accidental" [.str "sharp"]).run w =
        .ok (.entity 1) w' ∧ forwarded.run w = .ok (.entity 0) w') ∧
      (w.after forwarded).slot? 0 (.generated 0) = some (.entity 1) := by
  intro w forwarded
  have owned : (w.typeOf 0).property? "pitch" =
      some ⟨10, .typed (.generated 0) (.entity 0) []⟩ := rfl
  have plain : Instruction.parse "accidental" = .key "accidental" := by decide
  obtain ⟨answers, kept⟩ := typed_property_forwards (n := 1) owned rfl rfl rfl rfl rfl plain
    [.str "sharp"] (engine 1)
  have direct : (callMember (engine 1) (.entity 1) "accidental" [.str "sharp"]).run w =
      .ok (.entity 1) (w.after (setField 1 "_a" (.str "sharp"))) := rfl
  have spared : (callMember (sparingEngine 0 (.generated 0) 1 1) (.entity 1) "accidental"
      [.str "sharp"]).run w = .ok (.entity 1) (w.after (setField 1 "_a" (.str "sharp"))) := rfl
  have forwards : forwarded.run w =
      .ok (.entity 0) (w.after (setField 1 "_a" (.str "sharp"))) := by
    refine answers.trans ?_
    rw [direct]
    rfl
  have kept := kept (sparingEngine 0 (.generated 0) 1 1) (sparingEngine_spares _ _ _ _)
    (sparingEngine_refines _ _ _ _) (spared.trans direct.symm)
  refine ⟨?_, ⟨_, direct, forwards⟩, kept fun leads => ?_⟩
  · rw [World.after_eq_of_ok forwards]
    rfl
  · cases leads with
    | entry _ _ later | property _ _ _ later => exact absurd later.several (by decide)

/-- Two nodes and their owner, to which the first node is linked back. -/
def linkedNodes : World :=
  let link : Property := ⟨9, .basic (.generated 0) .undefined .identity⟩
  let head : Property := ⟨10, .typed (.generated 1) (.entity 0) []⟩
  { World.initial with
    types := #[
      { EntityType.bare "Node" with properties := Table.ofList [("link", link)] },
      { EntityType.bare "Owner" with properties := Table.ofList [("head", head)] }]
    objects := #[.entity ⟨1, .empty, [(1, .entity 1)]⟩, .entity ⟨0, .empty, [(0, .entity 0)]⟩,
      .entity ⟨0, .empty, []⟩] }

/-- No function of a user runs, and yet the arguments put the other node in the slot: from the
first node they go over its link to the owner, and there to the property they came from. -/
theorem link_back_replaces_head :
    let w := linkedNodes
    let args : List Value := [.str "head", .entity 2]
    let forwarded := callMember (engine 1) (.entity 0) "head" (.str "link" :: args)
    (w.typeOf 0).property? "head" = some ⟨10, .typed (.generated 1) (.entity 0) []⟩ ∧
      w.slot? 0 (.generated 1) = some (.entity 1) ∧ w.typeId? 1 = some 0 ∧
      (w.typeNamed 0).readable? "value" = none ∧
      ((w.typeNamed 0).property? "link").isSome ∧ Instruction.parse "link" = .key "link" ∧
      (callMember (sparingEngine 0 (.generated 1) 1 1) (.entity 1) "link" args).run w =
        (callMember (engine 1) (.entity 1) "link" args).run w ∧
      ¬ (w.after forwarded).slot? 0 (.generated 1) = some (.entity 1) := by
  intro w args forwarded
  have replaced : (w.after forwarded).slot? 0 (.generated 1) = some (.entity 2) := rfl
  -- whatever functions do in an engine, here it runs none
  have ends (e : Engine) : (callMember e (.entity 1) "link" args).run w =
      .ok (.entity 1) (((w.after (setSlot 0 (.generated 1) (.entity 2))).note
        (.stored 0 (.generated 1) 2)).note (.attached 0 2)) := rfl
  refine ⟨rfl, rfl, rfl, rfl, rfl, by decide, (ends _).trans (ends _).symm, fun held => ?_⟩
  rw [replaced] at held
  cases held

end Accessors
