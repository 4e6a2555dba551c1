import Accessors.Proofs.Confinement
import Accessors.Proofs.Conversion

/-! Instances do not see what calls on other instances do to a default, as long as the value
that an instance gets of it shares nothing with it. The calls may then change what their own
instance has and all that was made since, and this region never meets what a reading on
another instance looks at: the default and what its slot holds. -/

namespace Accessors

def Property.on (p : Property) (r : Ref) (args : List Value) : Action Value :=
  withEngine fun e => p.invoke e (.entity r) args

namespace World

def Apart (w : World) (others : List Value) (v : Value) : Prop :=
  ∀ u, w.Contains v u → u.isEntity = false ∧
    ∀ s, u.handle? = some s → ∀ other ∈ others, ¬ w.Reaches other s

def sources (w : World) (b : Ref) (key : StorageKey) (defaults : List Value) : List Value :=
  (w.slot? b key).toList ++ defaults

/-- A basic property, or a typed one of a native type, with a default that its instances share
nothing of that can be changed. -/
inductive Separate (w : World) (p : Property) : StorageKey → List Value → Prop
  | basic {key : StorageKey} {default : Value} {policy : ClonePolicy}
      (kind : p.kind = .basic key default policy)
      (accepted : ClonePolicy.ofDefault default = .ok policy) (separable : w.Separable default) :
      Separate w p key [default]
  | typed {key : StorageKey} {t : NativeType} {defaults : List Value}
      (kind : p.kind = .typed key (.native t) defaults) (separates : t.Separates w defaults) :
      Separate w p key defaults

theorem Apart.scalar {w : World} {others : List Value} {v : Value} (bare : v.handle? = none) :
    w.Apart others v := by
  refine fun u contains => ⟨EntityFree.scalar bare u contains, fun s handle => ?_⟩
  exact absurd ⟨u, contains, handle⟩ (Reaches.not_of_bare bare s)

theorem Apart.scalars {w : World} {others args : List Value}
    (flat : ∀ v ∈ args, v.handle? = none) : ∀ v ∈ args, w.Apart others v :=
  fun v mem => scalar (flat v mem)

theorem Apart.inside {w : World} {others : List Value} {v item : Value} {r : Ref}
    (apart : w.Apart others v) (handle : v.handle? = some r) (held : item ∈ w.held r) :
    w.Apart others item :=
  fun u contains => apart u (.inside handle held contains)

end World

/-- The calls on `a`, and new collections and dates of the host between them. What is given
is apart from what a reading on `b` starts from. -/
inductive Calls (p : Property) (key : StorageKey) (defaults : List Value) (a b : Ref) (w : World) :
    World → Prop
  | none : Calls p key defaults a b w w
  | call {w₁ : World} (before : Calls p key defaults a b w w₁) (args : List Value)
      (apart : ∀ v ∈ args, w₁.Apart (w₁.sources b key defaults) v) :
      Calls p key defaults a b w (w₁.after (p.on a args))
  | make {w₁ : World} (before : Calls p key defaults a b w w₁) (o : Object) (plain : o.inst? = .none)
      (apart : ∀ v ∈ o.held, w₁.Apart (w₁.sources b key defaults) v) :
      Calls p key defaults a b w (w₁.push o)

/-- What keeps two instances apart: a default of its own for each, whose objects exist, and
slots that share nothing with each other or with the default. -/
structure Unshared (p : Property) (key : StorageKey) (defaults : List Value) (a b : Ref)
    (w : World) : Prop where
  separate : w.Separate p key defaults
  finite : ∀ v ∈ defaults, w.Finite v
  present : ∀ v, w.slot? b key = some v → ∀ s, w.Reaches v s → s < w.objects.size
  apart : ∀ v, w.slot? a key = some v → w.Apart (w.sources b key defaults) v
  nested : ∀ t r, p.kind = .typed key t defaults → w.slot? b key ≠ some (.entity r)

namespace Region
variable {w w' : World} {a b : Ref} {key : StorageKey} {defaults : List Value}

def away (w : World) (a b : Ref) (key : StorageKey) (defaults : List Value) : Region where
  inside r := (∀ v ∈ w.sources b key defaults, ¬ w.Reaches v r) ∧
    ∀ item ∈ w.held r, w.Apart (w.sources b key defaults) item
  entity _ := False
  slot r k := r = a ∧ k = key

theorem away_plain : (away w a b key defaults).Plain := fun _ never => never

theorem away_outside {v : Value} (mem : v ∈ w.sources b key defaults) :
    (away w a b key defaults).Outside w v :=
  fun _ reaches inside => inside.1 v mem reaches

theorem within_away {v : Value} (apart : w.Apart (w.sources b key defaults) v) :
    (away w a b key defaults).within v := by
  have inside {r : Ref} (handle : v.handle? = some r) : (away w a b key defaults).inside r :=
    ⟨(apart v (.self v)).2 r handle, fun _ held => apart.inside handle held⟩
  cases v with
  | seq r | record r | date r => exact inside rfl
  | entity r => cases (apart _ (.self _)).1
  | _ => trivial

theorem apart_of_away (evolves : (away w a b key defaults).Evolves w w')
    (sealed : (away w a b key defaults).Sealed w') {v : Value}
    (within : (away w a b key defaults).within v) : w'.Apart (w.sources b key defaults) v := by
  intro u contains
  have still : (away w a b key defaults).within u := by
    refine contains.within (fun v hv r handle item held => ?_) within
    refine sealed.held r ?_ item held
    cases v <;> cases handle <;> first | exact hv | exact hv.elim
  refine ⟨away_plain.isEntity still, fun s handle other mem reaches => ?_⟩
  have inside : (away w a b key defaults).inside s := by
    cases u <;> cases handle <;> first | exact still | exact still.elim
  exact inside.1 other mem (((evolves.same (away_outside mem)).reaches (fun _ => .start)).mp reaches)

end Region

theorem World.SameOn.separable {w w' : World} {v : Value} (same : SameOn (w.Reaches v) w w')
    (h : w.Separable v) : w'.Separable v := by
  cases v with
  | seq r =>
    intro item mem
    unfold World.items at mem
    rw [same.sequence r (.start rfl)] at mem
    exact h item mem
  | _ => exact fun u contains => h u ((same.contains fun _ => .start).mp contains)

namespace Unshared
variable {p : Property} {key : StorageKey} {defaults : List Value} {a b : Ref} {w w' : World}

theorem sealed (h : Unshared p key defaults a b w) :
    (Region.away w a b key defaults).Sealed w where
  fresh r new := by
    refine ⟨fun other mem reaches => ?_, fun item held => ?_⟩
    · rcases List.mem_append.mp mem with mem | mem
      · exact absurd (h.present other (Option.mem_toList.mp mem) r reaches) (Nat.not_lt.mpr new)
      · obtain ⟨n, fathomed⟩ := h.finite other mem
        exact absurd (fathomed.lt reaches) (Nat.not_lt.mpr new)
    · rw [World.held_of_size new] at held
      cases held
  held r inside v held := Region.within_away (inside.2 v held)
  slots r k v may found := by
    obtain ⟨rfl, rfl⟩ := may
    exact Region.within_away (h.apart v found)

section
variable (distinct : a ≠ b)
  (evolves : (Region.away w a b key defaults).Evolves w w')
include distinct evolves

theorem slot_eq : w'.slot? b key = w.slot? b key :=
  evolves.slots b key fun may => distinct may.1.symm

theorem sources_eq : w'.sources b key defaults = w.sources b key defaults := by
  unfold World.sources
  rw [slot_eq distinct evolves]

theorem step (h : Unshared p key defaults a b w)
    (sealed : (Region.away w a b key defaults).Sealed w') :
    Unshared p key defaults a b w' where
  separate := by
    have outside (v : Value) (mem : v ∈ defaults) : (Region.away w a b key defaults).Outside w v :=
      Region.away_outside (List.mem_append_right _ mem)
    cases h.separate with
    | basic kind accepted separable =>
      exact .basic kind accepted ((evolves.same (outside _ (by simp))).separable separable)
    | typed kind separates => exact .typed kind (separates.evolves evolves outside)
  finite v mem := evolves.finite (Region.away_outside (List.mem_append_right _ mem)) (h.finite v mem)
  present v found s reaches := by
    rw [slot_eq distinct evolves] at found
    have outside : (Region.away w a b key defaults).Outside w v :=
      Region.away_outside (List.mem_append_left defaults (Option.mem_toList.mpr found))
    rw [(evolves.same outside).reaches fun _ => .start] at reaches
    exact Nat.lt_of_lt_of_le (h.present v found s reaches) evolves.size
  apart v found := by
    rw [sources_eq distinct evolves]
    exact Region.apart_of_away evolves sealed (sealed.slots a key v ⟨rfl, rfl⟩ found)
  nested t r kind := by
    rw [slot_eq distinct evolves]
    exact h.nested t r kind

end

theorem call_kept (h : Unshared p key defaults a b w) {args : List Value}
    (given : ∀ v ∈ args, w.Apart (w.sources b key defaults) v) :
    (Region.away w a b key defaults).Kept (fun _ => True) w
      ((p.on a args).run w) := by
  have within : ∀ v ∈ args, (Region.away w a b key defaults).within v :=
    fun v mem => Region.within_away (given v mem)
  have invoked : (Region.away w a b key defaults).Kept (fun _ => True) w
      ((p.invoke (engine w.depth) (.entity a) args).run w) := by
    cases h.separate with
    | @basic default policy kind accepted separable =>
      obtain ⟨n, fathomed⟩ := h.finite default (by simp)
      have made := (ClonePolicy.apply_builds accepted fathomed separable h.sealed).kept h.sealed
        fun _ _ copied => copied.elim fun _ copied => copied.within
      exact (invoke_basic_kept Region.away_plain _ h.sealed ⟨rfl, rfl⟩ kind made within).imp
        fun _ _ => trivial
    | typed kind separates =>
      have made := NativeType.construct_kept separates h.sealed
      exact (invoke_typed_kept Region.away_plain _ h.sealed ⟨rfl, rfl⟩ kind made within).imp
        fun _ _ => trivial
  exact invoked

end Unshared

def Ending.stored (r : Ref) (key : StorageKey) : Ending Value → Ending Value
  | .ok v w => .ok v (w.after (setSlot r key v))
  | .error stop w => .error stop w

theorem Ending.shape_stored (r : Ref) (key : StorageKey) (levels : Nat) (e : Ending Value) :
    (e.stored r key).shape levels = e.shape levels := by
  cases e with
  | ok v w =>
    exact congrArg Except.ok ((World.SameOn.setSlot w r key v).shape (fun _ _ => trivial) levels)
  | error stop w => rfl

theorem Ending.Alike.stored {e e' : Ending Value} (alike : Alike e e') (r : Ref)
    (key : StorageKey) : Alike (e.stored r key) (e'.stored r key) := by
  intro levels
  rw [shape_stored, shape_stored]
  exact alike levels

section
variable {p : Property} {b : Ref} {key : StorageKey} {w : World}

theorem Property.read_basic (e : Engine) {default : Value} {policy : ClonePolicy}
    (kind : p.kind = .basic key default policy) :
    p.invoke e (.entity b) [] = readBasic b key default policy := by
  unfold invoke
  simp only [kind, PropertyKind.invoke, receiver, pure_bind, bind_pure]

theorem Property.read_typed (e : Engine) {c : Constructor} {defaults : List Value}
    (kind : p.kind = .typed key c defaults) :
    p.invoke e (.entity b) [] = readTyped e b key c defaults := by
  unfold invoke
  simp only [kind, PropertyKind.invoke, receiver, pure_bind, bind_pure]

theorem reading_basic {default : Value} {policy : ClonePolicy}
    (kind : p.kind = .basic key default policy) :
    (p.on b []).run w = (readBasic b key default policy).run w := by
  show (p.invoke (engine w.depth) (.entity b) []).run w = _
  rw [p.read_basic _ kind]

theorem reading_typed {c : Constructor} {defaults : List Value}
    (kind : p.kind = .typed key c defaults) :
    (p.on b []).run w = (readTyped (engine w.depth) b key c defaults).run w := by
  show (p.invoke (engine w.depth) (.entity b) []).run w = _
  rw [p.read_typed _ kind]

theorem NativeType.accepts_isEntity {t : NativeType} {v : Value} (h : t.accepts v = true) :
    v.isEntity = false := by
  cases v with
  | entity r => cases t <;> cases h
  | _ => rfl

theorem NativeType.construct_isEntity {t : NativeType} {args : List Value} {w₁ : World} {v : Value}
    (ran : (t.construct args).run w = .ok v w₁) : v.isEntity = false := by
  rcases construct_holds ran with accepted | ⟨_, n, rfl⟩
  · exact accepts_isEntity accepted
  · rfl

theorem readBasic_empty (empty : ∀ v, w.slot? b key = some v → v.isUndefined = true)
    (default : Value) (policy : ClonePolicy) :
    (readBasic b key default policy).run w = Ending.stored b key ((policy.apply default).run w) := by
  unfold readBasic
  rw [currentSlot_empty empty, EStateM.run_bind]
  cases (policy.apply default).run w with
  | ok v w₁ => rfl
  | error stop w₁ => rfl

theorem readTyped_filled {v : Value} (found : w.slot? b key = some v)
    (defined : v.isUndefined = false) (plain : v.isEntity = false) (e : Engine) (c : Constructor)
    (defaults : List Value) : (readTyped e b key c defaults).run w = .ok v w := by
  unfold readTyped
  rw [EStateM.run_bind, currentSlot_filled found defined]
  show (unwrapNested e v).run w = _
  rw [unwrapNested_plain plain]
  rfl

theorem readTyped_empty (empty : ∀ v, w.slot? b key = some v → v.isUndefined = true) (e : Engine)
    (t : NativeType) (defaults : List Value) :
    (readTyped e b key (.native t) defaults).run w =
      Ending.stored b key ((t.construct defaults).run w) := by
  unfold readTyped Constructor.construct
  rw [EStateM.run_bind, currentSlot_empty empty, EStateM.run_bind]
  cases ending : (t.construct defaults).run w with
  | error stop w₁ => rfl
  | ok v w₁ =>
    have plain := NativeType.construct_isEntity ending
    dsimp only
    rw [place_plain plain]
    show (unwrapNested e v).run _ = _
    rw [unwrapNested_plain plain]
    rfl

end

namespace Unshared
variable {p : Property} {key : StorageKey} {defaults : List Value} {a b : Ref} {w w' : World}

theorem copy_alike {default : Value} {policy : ClonePolicy}
    (accepted : ClonePolicy.ofDefault default = .ok policy) {R : Region} (evolves : R.Evolves w w')
    (outside : R.Outside w default) (finite : w.Finite default) (separable : w.Separable default) :
    Ending.Alike ((policy.apply default).run w) ((policy.apply default).run w') := by
  have same := evolves.same outside
  obtain ⟨n, fathomed⟩ := finite
  have fathomed' := same.fathoms evolves.size (fun _ => .start) fathomed
  obtain ⟨v, w₁, ending, _, _, k, copied⟩ :=
    (ClonePolicy.apply_builds accepted fathomed separable (Region.sealed_everything w)).ok
  obtain ⟨v', w₁', ending', _, _, k', copied'⟩ :=
    (ClonePolicy.apply_builds accepted fathomed' (same.separable separable)
      (Region.sealed_everything w')).ok
  rw [ending, ending']
  intro levels
  refine congrArg Except.ok ?_
  calc w₁'.shape levels v' = w'.shape levels default := copied'.shape levels
    _ = w.shape levels default := same.shape (fun _ => .start) levels
    _ = w₁.shape levels v := (copied.shape levels).symm

theorem reading_filled (h : Unshared p key defaults a b w) {v : Value}
    (found : w.slot? b key = some v) (defined : v.isUndefined = false) :
    (p.on b []).run w = .ok v w := by
  cases h.separate with
  | basic kind _ _ => exact (reading_basic kind).trans (currentSlot_filled found defined _)
  | typed kind _ =>
    have plain : v.isEntity = false := by
      cases v with
      | entity r => exact absurd found (h.nested _ r kind)
      | _ => rfl
    rw [reading_typed kind]
    exact readTyped_filled found defined plain _ _ _

theorem reading_alike (h : Unshared p key defaults a b w) (h' : Unshared p key defaults a b w')
    (distinct : a ≠ b)
    (evolves : (Region.away w a b key defaults).Evolves w w') :
    Ending.Alike ((p.on b []).run w) ((p.on b []).run w') := by
  have outside (v : Value) (mem : v ∈ w.sources b key defaults) :
      (Region.away w a b key defaults).Outside w v := Region.away_outside mem
  have slot := slot_eq distinct evolves
  rcases w.filled_or_empty b key with ⟨v, found, defined⟩ | empty
  · have same := evolves.same (outside v (List.mem_append_left _ (Option.mem_toList.mpr found)))
    rw [h.reading_filled found defined, h'.reading_filled (slot.trans found) defined]
    exact fun levels => congrArg Except.ok (same.shape (fun _ => .start) levels)
  · have empty' : ∀ v, w'.slot? b key = some v → v.isUndefined = true :=
      fun v found => empty v (slot.symm.trans found)
    cases h.separate with
    | @basic default policy kind accepted separable =>
      rw [reading_basic kind, reading_basic kind, readBasic_empty empty, readBasic_empty empty']
      exact (copy_alike accepted evolves (outside _ (List.mem_append_right _ (by simp)))
        (h.finite _ (by simp)) separable).stored b key
    | @typed t defaults kind separates =>
      rw [reading_typed kind, reading_typed kind, readTyped_empty empty, readTyped_empty empty']
      exact (NativeType.construct_alike evolves
        (fun v mem => outside v (List.mem_append_right _ mem)) h.finite
        fun v mem _ _ => World.shape_scalar (separates.flat v mem)).stored b key

/-- A call on `a`, or a new object apart from `b`, keeps the instances apart and does not show
in a reading on `b`. -/
theorem of_step (h : Unshared p key defaults a b w) (distinct : a ≠ b)
    (evolves : (Region.away w a b key defaults).Evolves w w')
    (sealed : (Region.away w a b key defaults).Sealed w') :
    Unshared p key defaults a b w' ∧ Ending.Alike ((p.on b []).run w) ((p.on b []).run w') :=
  have h' := h.step distinct evolves sealed
  ⟨h', h.reading_alike h' distinct evolves⟩

end Unshared

theorem Unshared.of_empty {p : Property} {key : StorageKey} {defaults : List Value} {a b : Ref}
    {w : World} (separate : w.Separate p key defaults) (finite : ∀ v ∈ defaults, w.Finite v)
    (emptyA : w.slot? a key = none) (emptyB : w.slot? b key = none) :
    Unshared p key defaults a b w where
  separate := separate
  finite := finite
  present v found := by
    rw [emptyB] at found
    cases found
  apart v found := by
    rw [emptyA] at found
    cases found
  nested t r _ := by simp [emptyB]

/-- Default isolation. However often the property is called on `a`, with whatever is apart from
`b` and the default, and whether the calls end well or fail: reading it on `b` gives a value of
the same shape as if they had not been made, or the same error. -/
theorem reading_unaffected {p : Property} {key : StorageKey} {defaults : List Value} {a b : Ref}
    (distinct : a ≠ b) {w w' : World} (unshared : Unshared p key defaults a b w)
    (calls : Calls p key defaults a b w w') :
    Ending.Alike ((p.on b []).run w) ((p.on b []).run w') := by
  suffices Unshared p key defaults a b w' ∧
      Ending.Alike ((p.on b []).run w) ((p.on b []).run w') from this.2
  induction calls with
  | none => exact ⟨unshared, .refl _⟩
  | @call w₁ _ args apart ih =>
    have kept := ih.1.call_kept apart
    have next := ih.1.of_step distinct kept.after.1 kept.after.2
    exact ⟨next.1, ih.2.trans next.2⟩
  | @make w₁ _ o plain apart ih =>
    have held : ∀ v ∈ o.held, (Region.away w₁ a b key defaults).within v :=
      fun v mem => Region.within_away (apart v mem)
    have next := ih.1.of_step distinct (.push ih.1.sealed plain) (ih.1.sealed.push plain held)
    exact ⟨next.1, ih.2.trans next.2⟩

/-- A default of two numbers, the first of which the one instance replaces by a text. -/
theorem flat_sequence_unaffected :
    let p : Property := ⟨9, .basic (.generated 0) (.seq 0) .shallow⟩
    let bare : Instance := ⟨0, .empty, []⟩
    let w := { World.initial with
      objects := #[.seq #[.number 1, .number 2], .entity bare, .entity bare] }
    (1 : Ref) ≠ 2 ∧ Unshared p (.generated 0) [.seq 0] 1 2 w ∧
      Calls p (.generated 0) [.seq 0] 1 2 w (w.after (p.on 1 [.str "0", .str "x"])) ∧
      Ending.Alike ((p.on 2 []).run w)
        ((p.on 2 []).run (w.after (p.on 1 [.str "0", .str "x"]))) := by
  intro p bare w
  have items : w.held 0 = [.number 1, .number 2] := rfl
  have flat : ∀ v ∈ w.held 0, v.handle? = none := by simp [items, Value.handle?]
  have separate : w.Separate p (.generated 0) [.seq 0] :=
    .basic rfl rfl fun v mem => flat v (World.mem_held_of_items mem)
  have finite : ∀ v ∈ [Value.seq 0], w.Finite v := by
    intro v mem
    rw [List.mem_singleton.mp mem]
    exact ⟨1, .object rfl (by decide) fun u held => .scalar (flat u held)⟩
  have texts : ∀ v ∈ [Value.str "0", .str "x"], v.handle? = none := by simp [Value.handle?]
  have distinct : (1 : Ref) ≠ 2 := by decide
  have unshared : Unshared p (.generated 0) [.seq 0] 1 2 w := .of_empty separate finite rfl rfl
  have calls : Calls p (.generated 0) [.seq 0] 1 2 w (w.after (p.on 1 [.str "0", .str "x"])) :=
    .call .none _ (.scalars texts)
  exact ⟨distinct, unshared, calls, reading_unaffected distinct unshared calls⟩

def withSequence : Property := ⟨9, .basic (.generated 0) (.seq 0) .shallow⟩

/-- A sequence with a sequence in it, and two instances without slots. -/
def nestedPair : World :=
  { World.initial with
    objects := #[.seq #[.seq 1], .seq #[.number 1], .entity ⟨0, .empty, []⟩,
      .entity ⟨0, .empty, []⟩] }

/-- Both instances have the inner sequence of that default, so an entry that the one assigns
there is what the other reads. -/
theorem nested_sequence_affected :
    ClonePolicy.ofDefault (.seq 0) = .ok .shallow ∧
      ¬ ∀ w', Calls withSequence (.generated 0) [.seq 0] 2 3 nestedPair w' →
        Ending.Alike ((withSequence.on 3 []).run nestedPair) ((withSequence.on 3 []).run w') := by
  refine ⟨rfl, fun isolated => ?_⟩
  have texts : ∀ v ∈ [Value.str "0", .str "0", .str "x"], v.handle? = none := by
    simp [Value.handle?]
  have alike := isolated _ (.call .none _ (.scalars texts))
  have before : Ending.shape 2 ((withSequence.on 3 []).run nestedPair) =
      .ok (.seq [.seq [.number 1]]) := rfl
  have after : Ending.shape 2 ((withSequence.on 3 []).run
      (nestedPair.after (withSequence.on 2 [.str "0", .str "0", .str "x"]))) =
        .ok (.seq [.seq [.str "x"]]) := rfl
  cases after.symm.trans ((alike 2).trans before)

end Accessors
