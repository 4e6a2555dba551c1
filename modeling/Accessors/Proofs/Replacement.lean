import Accessors.Proofs.Forwarding
import Accessors.Proofs.Parent
import Accessors.Proofs.Reconstruction

/-! Replacing the value of a typed property. The method `new` makes a value of the arguments and
the property stores it, whatever the property reads, as long as that is neither undefined nor
null: what is nullish can only be written, so that there the text of the instruction is an
argument like the others. Main statement: what a call of a typed property with `#new` stores,
and that it answers the owner (`new_replaces_unless_nullish`). -/

namespace Accessors

/-- How a value is made from exactly some arguments: a native one by its type, an instance anew,
and initialized with them. -/
inductive Constructor.Makes (e : Engine) (w : World) (args : List Value) :
    Constructor → Value → World → Prop
  | native {t : NativeType} {v : Value} {w' : World} (made : (t.construct args).run w = .ok v w') :
    Makes e w args (.native t) v w'
  | bare {t : TypeId} (none : (w.typeNamed t).initializer = none) :
    Makes e w args (.entity t) (.entity w.objects.size) (w.push (.entity ⟨t, .empty, []⟩))
  | initialized {t : TypeId} {body : Script} {u : Value} {w' : World}
    (some : (w.typeNamed t).initializer = some body)
    (ran : (e.run body (.entity w.objects.size) args).run (w.push (.entity ⟨t, .empty, []⟩)) =
      .ok u w') :
    Makes e w args (.entity t) (.entity w.objects.size) w'

/-- How a call ends that stores a value in a slot of the instance `r` and answers that instance. A
nested entity is in the slot when it is told its owner, and the call fails only where that does. -/
inductive Stores (e : Engine) (w : World) (r : Ref) (slot : StorageKey) :
    Value → Ending Value → Prop
  | plain {v : Value} (unnested : v.isEntity = false)
    (held : (w.after (setSlot r slot v)).slot? r slot = some v) :
    Stores e w r slot v (.ok (.entity r) (w.after (setSlot r slot v)))
  | nested {n : Ref} {w' : World} (held : (w.storing r slot n).slot? r slot = some (.entity n))
    (told : (attachParent e (.entity n) (.entity r)).run (w.storing r slot n) = .ok () w') :
    Stores e w r slot (.entity n) (.ok (.entity r) (w'.note (.attached r n)))
  | refused {n : Ref} {stop : Stop} {w' : World}
    (told : (attachParent e (.entity n) (.entity r)).run (w.storing r slot n) = .error stop w') :
    Stores e w r slot (.entity n) (.error stop w')

section
variable {e : Engine} {w : World} {c : Constructor} {args : List Value} {v : Value} {w' : World}

theorem Constructor.makes_iff :
    c.Makes e w args v w' ↔ (c.construct e args).run w = .ok v w' := by
  constructor
  · intro made
    cases made with
    | native made => exact made
    | bare none => rw [construct, constructEntity_run, none]
    | initialized some ran =>
      rw [construct, constructEntity_run, some]
      dsimp only
      rw [EStateM.run_bind, ran]
      rfl
  · intro ran
    cases c with
    | native t => exact .native ran
    | entity t =>
      rw [construct, constructEntity_run] at ran
      cases initializer : (w.typeNamed t).initializer with
      | none =>
        rw [initializer] at ran
        cases ran
        exact .bare initializer
      | some body =>
        rw [initializer] at ran
        obtain ⟨u, w₁, begun, ended⟩ := World.run_bind_ok ran
        cases ended
        exact .initialized initializer begun

theorem Constructor.accepts_str {s : String} :
    c.accepts w (.str s) = true ↔ c = .native .string := by
  cases c with
  | entity t => simp [accepts]
  | native t => cases t <;> simp [accepts, NativeType.accepts]

/-- What was made can be stored as it is, or is made again with the same outcome, but for
infinite integers. -/
theorem coerce_made {depth : Nat} (made : c.Makes (engine depth) w args v w')
    (fits : c = .native .integer → ∀ negative, v ≠ .number (Number.infinite negative)) :
    (coerce (engine depth) c v [v]).run w' = .ok v w' := by
  have ran := Constructor.makes_iff.mp made
  have holds := Constructor.construct_holds (engine_steps (.lenient w.types) depth) rfl ran
  rw [coerce_run]
  rcases holds with accepted | ⟨rfl, n, rfl⟩
  · rw [if_pos accepted]
  · rw [if_neg (by simp [Constructor.accepts, NativeType.accepts])]
    obtain ⟨v', w'', again, same⟩ :=
      (NativeType.remakes_made_integer_iff ran).mpr (not_exists.mpr (fits rfl))
    cases same
    exact again

theorem World.slot?_of_set {r : Ref} {t : TypeId} (owner : w.typeId? r = some t)
    (slot : StorageKey) (v : Value) : (w.after (setSlot r slot v)).slot? r slot = some v := by
  obtain ⟨inst, held, _⟩ := Option.map_eq_some_iff.mp owner
  have there : (w.instance? r).isSome := Option.isSome_of_eq_some held
  rw [World.slot?_setSlot, if_pos ⟨rfl, rfl, there⟩]

theorem place_stores (e : Engine) {r : Ref} {t : TypeId} (owner : w.typeId? r = some t)
    (slot : StorageKey) (v : Value) :
    Stores e w r slot v
      ((place e r slot v >>= fun _ => (pure (.entity r) : Action Value)).run w) := by
  have held := World.slot?_of_set owner slot v
  cases v with
  | entity n =>
    have stored : (place e r slot (.entity n) >>= fun _ =>
          (pure (.entity r) : Action Value)).run w =
        (attachParent e (.entity n) (.entity r) >>= fun _ => note (.attached r n) >>= fun _ =>
          (pure (.entity r) : Action Value)).run (w.storing r slot n) := by
      rw [place_entity]
      simp only [bind_assoc]
      rfl
    rw [stored, EStateM.run_bind]
    cases told : (attachParent e (.entity n) (.entity r)).run (w.storing r slot n) with
    | ok u w' => exact .nested held told
    | error stop w' => exact .refused told
  | _ => exact .plain rfl held

theorem Constructor.Makes.keeps_instance {depth : Nat} (made : c.Makes (engine depth) w args v w')
    {r : Ref} {t : TypeId} (owner : w.typeId? r = some t) : w'.typeId? r = some t := by
  have ran := makes_iff.mp made
  have steps := c.construct_stepwise (engine_steps (.lenient w.types) depth) args
  rw [← World.after_eq_of_ok ran]
  exact steps.typeId rfl owner

end

theorem evaluate_new (e : Engine) {current : Value} (present : current.isNullish = false)
    (args : List Value) (c : Constructor) :
    evaluate e current (.str "#new") args (some c) =
      (c.construct e args >>= fun v => pure (.write v)) := by
  have method : Instruction.parse "#new" = .method "new" false := by decide
  rw [evaluate_method e present method]
  rfl

section
variable {p : Property} {slot : StorageKey} {c : Constructor} {defaults : List Value}
  (typed : p.kind = .typed slot c defaults)
include typed

theorem Property.keep_stores {e : Engine} {u v : Value} {given : List Value} {w w' : World}
    (coerced : (coerce e c u given).run w = .ok v w') {r : Ref} {t : TypeId}
    (owner : w'.typeId? r = some t) :
    Stores e w' r slot v ((p.kind.keep e (.entity r) u given >>= fun _ =>
      (pure (.entity r) : Action Value)).run w) := by
  have kept : p.kind.keep e (.entity r) u given =
      (coerce e c u given >>= fun v => place e r slot v) := by
    rw [typed]
    rfl
  rw [kept, bind_assoc, EStateM.run_bind, coerced]
  exact place_stores e owner slot v

theorem Property.call_typed {e : Engine} {r : Ref} {w w₁ : World} {current : Value}
    (reads : (p.invoke e (.entity r) []).run w = .ok current w₁) (key : Value) (args : List Value) :
    (p.invoke e (.entity r) (key :: args)).run w =
      (evaluate e current key args (some c) >>= fun outcome =>
        p.kind.settle e (.entity r) key args outcome).run w₁ := by
  have descends : p.kind.Descends := by rw [typed]; trivial
  have own : p.kind.owner = some c := by rw [typed]; rfl
  rw [p.invoke_descends descends, EStateM.run_bind, reads, own]

theorem Property.call_new {e : Engine} {r : Ref} {w w₁ : World} {current : Value}
    (reads : (p.invoke e (.entity r) []).run w = .ok current w₁)
    (present : current.isNullish = false) (args : List Value) :
    (p.invoke e (.entity r) (.str "#new" :: args)).run w =
      (c.construct e args >>= fun v =>
        p.kind.settle e (.entity r) (.str "#new") args (.write v)).run w₁ := by
  rw [p.call_typed typed reads, evaluate_new e present, bind_assoc]
  rfl

theorem Property.call_nullish {e : Engine} {r : Ref} {w w₁ : World} {current : Value}
    (reads : (p.invoke e (.entity r) []).run w = .ok current w₁)
    (nullish : current.isNullish = true) (key : Value) (args : List Value) :
    (p.invoke e (.entity r) (key :: args)).run w =
      (p.kind.settle e (.entity r) key args .request).run w₁ := by
  rw [p.call_typed typed reads, evaluate_nullish e nullish]
  rfl

end

/-- The instance `r` has a typed property, and reads it. A call of that property with `#new` and
arguments stores a value that was made of exactly these arguments, unless what was read is undefined
or null. Infinite numbers made as integers are left out. What is nullish can only be written: a text
property takes the text `#new` itself then, and any other one a value made of that text and the
arguments. -/
theorem new_replaces_unless_nullish {p : Property} {slot : StorageKey} {c : Constructor}
    {defaults : List Value} (typed : p.kind = .typed slot c defaults) {w w₁ : World} {r : Ref}
    {t : TypeId} (owner : w.typeId? r = some t) {depth : Nat} {current : Value}
    (reads : (p.invoke (engine depth) (.entity r) []).run w = .ok current w₁) (args : List Value) :
    let e := engine depth
    let call := (p.invoke e (.entity r) (.str "#new" :: args)).run w
    (current.isNullish = false → ∀ v w₂, c.Makes e w₁ args v w₂ →
      (c = .native .integer → ∀ negative, v ≠ .number (Number.infinite negative)) →
      Stores e w₂ r slot v call) ∧
    (current.isNullish = true →
      (c = .native .string → Stores e w₁ r slot (.str "#new") call) ∧
      (c ≠ .native .string → ∀ v w₂, c.Makes e w₁ (.str "#new" :: args) v w₂ →
        Stores e w₂ r slot v call)) := by
  intro e call
  have kept : w₁.typeId? r = some t := by
    have steps := p.invoke_stepwise (engine_steps (.lenient w.types) depth) p.kind.obeys_anything
      (.entity r) []
    rw [← World.after_eq_of_ok reads]
    exact steps.typeId rfl owner
  refine ⟨fun present v w₂ made fits => ?_, fun nullish => ?_⟩
  · have called := p.call_new typed reads present args
    rw [EStateM.run_bind, Constructor.makes_iff.mp made] at called
    rw [show call = _ from called]
    exact p.keep_stores typed (coerce_made made fits) (made.keeps_instance kept)
  · rw [show call = _ from p.call_nullish typed reads nullish (.str "#new") args]
    have coerced := coerce_run e c (.str "#new") (.str "#new" :: args) w₁
    refine ⟨fun text => ?_, fun other v w₂ made => ?_⟩
    · rw [if_pos (Constructor.accepts_str.mpr text)] at coerced
      exact p.keep_stores typed coerced kept
    · rw [if_neg (mt Constructor.accepts_str.mp other), Constructor.makes_iff.mp made] at coerced
      exact p.keep_stores typed coerced (made.keeps_instance kept)

/-- Notes with a pitch, which keeps the step that it is made with and is told its note. -/
def pitchedNote (properties : List (String × Property)) : World :=
  let pitch : EntityType :=
    { EntityType.bare "Pitch" with
      properties := Table.ofList properties
      methods := Table.ofList [("setParent", .setField .this "_note" (.argument 0))]
      initializer := some (.setField .this "_step" (.argument 0)) }
  { World.initial with
    types := #[pitch, .bare "Note"]
    objects := #[.entity ⟨1, .empty, [(0, .entity 1)]⟩, .entity ⟨0, .empty, []⟩] }

def pitchProperty : Property := ⟨9, .typed (.generated 0) (.entity 0) []⟩

/-- A pitch that is read itself is replaced by one made with the given step. -/
theorem new_pitch_replaces_old :
    let w := pitchedNote []
    let call := pitchProperty.invoke (engine 1) (.entity 0) [.str "#new", .str "C"]
    ∃ v w₂ w', (Constructor.entity 0).Makes (engine 1) w [.str "C"] v w₂ ∧
      Stores (engine 1) w₂ 0 (.generated 0) v (call.run w) ∧ call.run w = .ok (.entity 0) w' ∧
      w'.slot? 0 (.generated 0) = some (.entity 2) ∧ w'.field 2 "_step" = .str "C" ∧
      w'.field 2 "_note" = .entity 0 := by
  intro w call
  have reads : (pitchProperty.invoke (engine 1) (.entity 0) []).run w = .ok (.entity 1) w := rfl
  have made : (Constructor.entity 0).Makes (engine 1) w [.str "C"] _ _ := .initialized rfl rfl
  have owner : w.typeId? 0 = some 1 := rfl
  have replaces := new_replaces_unless_nullish rfl owner reads [.str "C"]
  have called := Property.call_new rfl reads rfl [.str "C"]
  exact ⟨_, _, _, made, replaces.1 rfl _ _ made nofun, called, rfl, rfl, rfl⟩

/-- A pitch whose value is undefined: the new pitch is made with the text of the instruction as
its step, not with the given one. -/
theorem undefined_pitch_made_of_instruction :
    let w := pitchedNote [("value", ⟨10, .readOnly (.slot (.named "_value"))⟩)]
    let call := pitchProperty.invoke (engine 2) (.entity 0) [.str "#new", .str "C"]
    (pitchProperty.invoke (engine 2) (.entity 0) []).run w = .ok .undefined w ∧
    ∃ v w₂ w', (Constructor.entity 0).Makes (engine 2) w [.str "C"] v w₂ ∧
      call.run w = .ok (.entity 0) w' ∧ w'.field 2 "_step" = .str "#new" ∧
      ¬ Stores (engine 2) w₂ 0 (.generated 0) v (call.run w) := by
  intro w call
  have reads : (pitchProperty.invoke (engine 2) (.entity 0) []).run w = .ok .undefined w := rfl
  have made : (Constructor.entity 0).Makes (engine 2) w [.str "C"] _ _ := .initialized rfl rfl
  have called := Property.call_nullish rfl reads rfl (.str "#new") [.str "C"]
  have stepped : (Ending.world ((pitchProperty.kind.settle (engine 2) (.entity 0) (.str "#new")
      [.str "C"] .request).run w)).field 2 "_step" = .str "#new" := rfl
  refine ⟨reads, _, _, _, made, called, stepped, fun stores => ?_⟩
  rw [show call.run w = _ from called] at stores
  generalize (pitchProperty.kind.settle _ _ _ _ _).run w = ending at stores stepped
  cases stores with
  | plain unnested held => cases unnested
  | nested held told =>
    cases told
    have given := stepped.symm.trans (rfl : _ = Value.str "C")
    exact absurd (Value.str.inj given) (by decide)
  | refused told => cases told

end Accessors
