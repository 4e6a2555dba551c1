import Accessors.Proofs.Operations
import Accessors.Synthesizer

/-! Sessions of a host: properties are synthesized or made by hand, types are declared with
them, and operations are performed, in any order. Generated keys come from one counter, so
that in every session each of them belongs to at most one property. -/

namespace Accessors

/-- What making a property does to the world: it may take numbers, nothing else. -/
structure Spends (w w' : World) : Prop where
  objects : w'.objects = w.objects
  types : w'.types = w.types
  nextSlot : w.nextSlot ≤ w'.nextSlot

def Property.NewBetween (w w' : World) (p : Property) : Prop :=
  ∀ id, p.storageKey? = some (.generated id) → w.nextSlot ≤ id ∧ id < w'.nextSlot

namespace Synthesizer
variable {s : Synthesizer}

/-- Either a property that the synthesizer remembers or a new one, or a refusal. -/
def Gives (s : Synthesizer) (w : World) : Ending Result → Prop
  | .ok (made, _) w' => Spends w w' ∧
    ∀ p, made = .ok p → p ∈ s.made.map Prod.snd ∨ p.NewBetween w w'
  | .error _ _ => False

def Makes (s : Synthesizer) (a : Action Result) : Prop :=
  ∀ w, s.Gives w (a.run w)

theorem spends_refl (w : World) : Spends w w := ⟨rfl, rfl, Nat.le_refl _⟩

theorem Makes.refuse (s' : Synthesizer) (error : Error) : s.Makes (s'.refuse error) :=
  fun _ => ⟨spends_refl _, nofun⟩

theorem Makes.checked {α : Type} {s' : Synthesizer} {x : Except Error α} {k : α → Action Result}
    (h : ∀ a, x = .ok a → s.Makes (k a)) : s.Makes (s'.checked x k) := by
  cases x with
  | ok a => exact h a rfl
  | error error => exact .refuse s' error

theorem Makes.unshared {kind : PropertyKind}
    (named : ∀ id i, Property.storageKey? ⟨i, kind⟩ ≠ some (.generated id)) :
    s.Makes (s.unshared kind) := by
  refine fun _ => ⟨⟨rfl, rfl, Nat.le_refl _⟩, ?_⟩
  rintro p ⟨⟩
  exact .inr fun id key => absurd key (named id _)

theorem share_makes (shared : Shared) : s.Makes (s.share shared) := by
  unfold share
  split
  · rename_i p found
    obtain ⟨before, after, made, _⟩ := List.lookup_eq_some_iff.mp found
    refine fun w => ⟨spends_refl w, ?_⟩
    rintro q ⟨⟩
    exact .inl (by simp [made])
  · refine fun w => ⟨⟨rfl, rfl, Nat.le_refl _⟩, ?_⟩
    rintro q ⟨⟩
    refine .inr fun id key => ?_
    cases shared <;> cases key

theorem accessor_makes (getOption : Option GetOption) (setOption : Option SetOption) :
    s.Makes (s.accessor getOption setOption) := by
  unfold accessor
  split
  · exact .unshared (by simp [Property.storageKey?])
  · exact .checked fun _ _ => share_makes _
  · exact .unshared (by simp [Property.storageKey?])
  · exact .checked fun _ _ => share_makes _
  · exact .unshared (by simp [Property.storageKey?])
  · exact .refuse s _
  · exact .refuse s _

theorem keeping_gives {w w₁ : World} (spent : Spends w w₁) (key : StorageKey)
    (own : ∀ id, key = .generated id → w.nextSlot ≤ id ∧ id < w₁.nextSlot)
    (type : Option TypeRef) (default : Option Value) :
    s.Gives w ((s.keeping key type default).run w₁) := by
  have further : Spends w { w₁ with nextProperty := w₁.nextProperty + 1 } :=
    ⟨spent.objects, spent.types, spent.nextSlot⟩
  have kept {kind : PropertyKind} {p : Property}
      (place : ∀ id, Property.storageKey? ⟨id, kind⟩ = some key)
      (made : (.ok ⟨w₁.nextProperty, kind⟩ : Except Error Property) = .ok p) :
      p ∈ s.made.map Prod.snd ∨
        p.NewBetween w { w₁ with nextProperty := w₁.nextProperty + 1 } := by
    cases made
    refine .inr fun id taken => own id ?_
    rw [place] at taken
    exact Option.some.inj taken
  unfold keeping
  cases type with
  | some type =>
    dsimp only
    rw [EStateM.run_bind, EStateM.run_get]
    cases (s.constructorOf type).1 with
    | ok c => exact ⟨further, fun p => kept fun _ => rfl⟩
    | error error => exact ⟨spent, nofun⟩
  | none =>
    dsimp only
    cases ClonePolicy.ofDefault (default.getD .undefined) with
    | ok policy => exact ⟨further, fun p => kept fun _ => rfl⟩
    | error error => exact ⟨spent, nofun⟩

theorem stored_makes (type : Option TypeRef) (default : Option Value) (var : Option String) :
    s.Makes (s.stored type default var) := by
  intro w
  cases var with
  | some name => exact keeping_gives (spends_refl w) (.named name) (fun _ h => nomatch h) type default
  | none =>
    have taken : Spends w { w with nextSlot := w.nextSlot + 1 } := ⟨rfl, rfl, Nat.le_succ w.nextSlot⟩
    refine keeping_gives taken (.generated w.nextSlot) (fun id h => ?_) type default
    cases h
    exact ⟨Nat.le_refl _, Nat.lt_succ_self _⟩

theorem Makes.ifElse {c : Prop} [Decidable c] {a b : Action Result}
    (ha : s.Makes a) (hb : s.Makes b) : s.Makes (if c then a else b) := by
  split
  · exact ha
  · exact hb

theorem declared_makes (o : Options) : s.Makes (s.declared o) := by
  unfold declared
  dsimp only
  split
  · exact .ifElse (.refuse s _) (.unshared (by simp [Property.storageKey?]))
  · exact .ifElse (.ifElse (.refuse s _) (accessor_makes _ _)) (stored_makes _ _ _)

theorem fromOptions_makes (o : Options) : s.Makes (s.fromOptions o) :=
  .checked fun _ _ => declared_makes o

theorem made_camelName (s : Synthesizer) (name : String) : (s.camelName name).2.made = s.made := by
  unfold camelName
  split <;> rfl

theorem made_shortcutOptions (s : Synthesizer) (text : String) :
    (s.shortcutOptions text).2.made = s.made := by
  unfold shortcutOptions
  split
  · rfl
  · dsimp only
    split <;> exact s.made_camelName text

theorem Makes.of_made {s s' : Synthesizer} {a : Action Result}
    (same : s'.made = s.made) (h : s'.Makes a) : s.Makes a := by
  intro w
  have given := h w
  unfold Gives at given ⊢
  rwa [same] at given

theorem synthesize_makes (d : Descriptor) : s.Makes (s.synthesize d) := by
  unfold synthesize
  split
  · exact fromOptions_makes _
  · exact share_makes _
  · exact share_makes _
  · exact .checked fun o _ => .of_made (s.made_shortcutOptions _) (fromOptions_makes o)
  · exact fromOptions_makes _
  · exact fromOptions_makes _
  · exact fromOptions_makes _

end Synthesizer

/-- Host work beside the operations: values are made and changed, the channel, the logging and
the named values are set. No type is declared and no slot is written by it. -/
structure Beside (w w' : World) : Prop where
  types : w'.types = w.types
  nextSlot : w'.nextSlot = w.nextSlot
  typeId : ∀ r, w'.typeId? r = w.typeId? r
  slots : ∀ r key, w'.slot? r key = w.slot? r key

/-- Worlds that a host can reach, with the properties it has made by then. The properties of
dates are there from the start. An operation may end at any depth: ended early it is left
as it is when a nested call starts, so that what nested calls find is reached as well. -/
inductive Session : World → List Property → Prop
  | start : Session .initial []
  | beside {w w' : World} {made : List Property} (sofar : Session w made) (only : Beside w w') :
    Session w' made
  | synthesize {w : World} {made : List Property} (sofar : Session w made) (s : Synthesizer)
      (known : ∀ p ∈ s.made.map Prod.snd, p ∈ made) (d : Descriptor) :
    Session (w.after (s.synthesize d))
      (match (s.synthesize d).run w with
        | .ok (.ok p, _) _ => p :: made
        | _ => made)
  | byHand {w : World} {made : List Property} (sofar : Session w made) (kind : PropertyKind)
      (own : ∀ id i, Property.storageKey? ⟨i, kind⟩ = some (.generated id) → id = w.nextSlot) :
    Session { w with nextSlot := w.nextSlot + 1, nextProperty := w.nextProperty + 1 }
      (⟨w.nextProperty, kind⟩ :: made)
  | declare {w : World} {made : List Property} (sofar : Session w made) (type : EntityType)
      (known : ∀ p ∈ type.properties.values, p ∈ made ∨ ∃ id field, p = DateField.property id field) :
    Session (w.after (declareType type)) made
  | perform {w : World} {made : List Property} (sofar : Session w made) (op : Operation)
      (depth : Nat)
      (known : ∀ p this args, op = .invoke p this args →
        p ∈ made ∨ ∃ id field, p = DateField.property id field) :
    Session (w.after (op.performWith (engine depth))) made
  | setField {w : World} {made : List Property} (sofar : Session w made) (r : Ref) (name : String)
      (v : Value) :
    Session (w.after (setField r name v)) made

def Owned (made : List Property) : Admission := fun key w v =>
  ∀ id, key = .generated id → ∃ p ∈ made, p.storageKey? = some key ∧
    ∀ c defaults, p.kind = .typed key c defaults → c.Holds w v

theorem Constructor.Holds.mono {w w' : World} {c : Constructor} {v : Value}
    (typeId : ∀ r t, w.typeId? r = some t → w'.typeId? r = some t) (h : c.Holds w v) :
    c.Holds w' v := by
  refine h.imp (fun accepted => ?_) id
  cases c with
  | native t => exact accepted
  | entity t =>
    cases v with
    | entity r => simpa [accepts] using typeId r t (by simpa [accepts] using accepted)
    | _ => exact accepted

theorem Owned.mono {made : List Property} {key : StorageKey} {w w' : World} {v : Value}
    (typeId : ∀ r t, w.typeId? r = some t → w'.typeId? r = some t) (h : Owned made key w v) :
    Owned made key w' v := by
  intro id eq
  obtain ⟨p, mem, keyed, holds⟩ := h id eq
  exact ⟨p, mem, keyed, fun c defaults kind => (holds c defaults kind).mono typeId⟩

theorem Property.obeys_owned {made : List Property} {p : Property} (mem : p ∈ made) :
    p.kind.Obeys (Owned made) := by
  cases kind : p.kind with
  | basic key default policy =>
    exact fun w v id eq => ⟨p, mem, by rw [storageKey?, kind], fun c d h => by simp [kind] at h⟩
  | writeOnly side =>
    cases side with
    | setter _ => trivial
    | slot key =>
      exact fun w v id eq => ⟨p, mem, by rw [storageKey?, kind], fun c d h => by simp [kind] at h⟩
  | typed key c defaults =>
    refine fun w v holds id eq => ⟨p, mem, by rw [storageKey?, kind], fun c' d h => ?_⟩
    rw [kind] at h
    cases h
    exact holds
  | _ => trivial

theorem obeys_owned_or_date {made : List Property} {p : Property}
    (h : p ∈ made ∨ ∃ id field, p = DateField.property id field) : p.kind.Obeys (Owned made) := by
  rcases h with mem | ⟨id, field, rfl⟩
  · exact p.obeys_owned mem
  · exact field.obeys _ id

/-- Generated keys are taken from the counter, each by one property, and stand in slots only
with what their property may hold. -/
structure Sound (w : World) (made : List Property) : Prop where
  taken : ∀ p ∈ made, ∀ id, p.storageKey? = some (.generated id) → id < w.nextSlot
  apart : ∀ p ∈ made, ∀ q ∈ made, ∀ id, p.storageKey? = some (.generated id) →
    q.storageKey? = some (.generated id) → p = q
  declared : ∀ type ∈ w.types, ∀ p ∈ type.properties.values,
    p ∈ made ∨ ∃ id field, p = DateField.property id field
  stored : ∀ r id v, w.slot? r (.generated id) = some v → Owned made (.generated id) w v

namespace Sound
variable {w w' : World} {made : List Property}

def rules (h : Sound w made) : Rules where
  types := w.types
  admits := Owned made
  engines _ := True
  nested _ := trivial
  named _ _ _ _ eq := nomatch eq
  declared type mem p value := obeys_owned_or_date (h.declared type mem p value)

theorem invariant (h : Sound w made) : Invariant h.rules fun w' =>
    w'.types = w.types ∧ w'.nextSlot = w.nextSlot ∧
      ∀ r id v, w'.slot? r (.generated id) = some v → Owned made (.generated id) w' v where
  types _ now := now.1
  quiet w₁ w₂ evolves now := by
    refine ⟨evolves.types.trans now.1, ?_, fun r id v found => ?_⟩
    · rw [evolves.scene]
      exact now.2.1
    · rw [evolves.slots r _ fun never => never] at found
      exact (now.2.2 r id v found).mono fun s t typed => (evolves.typeId s).trans typed
  create w₁ t now := by
    refine ⟨now.1, now.2.1, fun r id v found => ?_⟩
    rw [World.slot?_push_bare] at found
    exact (now.2.2 r id v found).mono fun s u typed => World.typeId?_push typed _
  store w₁ r key v admitted now := by
    refine ⟨now.1, now.2.1, fun s id u found => ?_⟩
    have kept : ∀ s t, w₁.typeId? s = some t → (w₁.after (setSlot r key v)).typeId? s = some t :=
      fun s t typed => (World.typeId?_setSlot w₁ r key v s).trans typed
    rw [World.slot?_setSlot] at found
    split at found
    · rename_i here
      cases found
      rw [← here.2.1]
      exact Owned.mono kept admitted
    · exact (now.2.2 s id u found).mono kept
  note _ _ now := now
  announce _ _ now := now

theorem spend (h : Sound w made) (spent : Spends w w') : Sound w' made where
  taken p mem id key := Nat.lt_of_lt_of_le (h.taken p mem id key) spent.nextSlot
  apart := h.apart
  declared type mem := h.declared type (spent.types ▸ mem)
  stored r id v found := by
    have same : ∀ s, w'.instance? s = w.instance? s := fun s => by
      rw [World.instance?_eq, World.instance?_eq, spent.objects]
    rw [World.slot?_of_instance (same r)] at found
    exact (h.stored r id v found).mono fun s t typed =>
      (World.typeId?_of_instance (same s)).trans typed

theorem cons (h : Sound w made) (spent : Spends w w') {p : Property}
    (new : p.NewBetween w w') : Sound w' (p :: made) where
  taken q mem id key := by
    rcases List.mem_cons.mp mem with rfl | mem
    · exact (new id key).2
    · exact (h.spend spent).taken q mem id key
  apart q hq r hr id keyed keyed' := by
    rcases List.mem_cons.mp hq with rfl | older <;> rcases List.mem_cons.mp hr with rfl | older'
    · rfl
    · exact absurd (h.taken r older' id keyed') (Nat.not_lt.mpr (new id keyed).1)
    · exact absurd (h.taken q older id keyed) (Nat.not_lt.mpr (new id keyed').1)
    · exact h.apart q older r older' id keyed keyed'
  declared type mem q value :=
    ((h.spend spent).declared type mem q value).imp (List.mem_cons_of_mem _) fun h => h
  stored r id v found other eq := by
    obtain ⟨q, mem, holds⟩ := (h.spend spent).stored r id v found other eq
    exact ⟨q, List.mem_cons_of_mem _ mem, holds⟩

theorem again (h : Sound w made) {p : Property} (mem : p ∈ made) : Sound w (p :: made) where
  taken q hq := h.taken q (List.mem_of_mem_cons_of_mem hq mem)
  apart q hq r hr := h.apart q (List.mem_of_mem_cons_of_mem hq mem) r
    (List.mem_of_mem_cons_of_mem hr mem)
  declared type known q value :=
    (h.declared type known q value).imp (List.mem_cons_of_mem _) fun h => h
  stored r id v found other eq := by
    obtain ⟨q, mem, holds⟩ := h.stored r id v found other eq
    exact ⟨q, List.mem_cons_of_mem _ mem, holds⟩

theorem of_steps (h : Sound w made)
    (now : w'.types = w.types ∧ w'.nextSlot = w.nextSlot ∧
      ∀ r id v, w'.slot? r (.generated id) = some v → Owned made (.generated id) w' v) :
    Sound w' made where
  taken p mem id key := now.2.1.symm ▸ h.taken p mem id key
  apart := h.apart
  declared type mem := h.declared type (now.1 ▸ mem)
  stored := now.2.2

theorem perform (h : Sound w made) {op : Operation} (obeys : op.Obeys (Owned made))
    (depth : Nat) : Sound (w.after (op.performWith (engine depth))) made :=
  have steps : Stepwise h.rules (op.performWith (engine depth)) :=
    op.performWith_stepwise (engine_steps h.rules depth) obeys
  h.of_steps (steps.invariant h.invariant w ⟨rfl, rfl, h.stored⟩)

theorem setField (h : Sound w made) (r : Ref) (name : String) (v : Value) :
    Sound (w.after (setField r name v)) made :=
  h.of_steps (h.invariant.store w r (.named name) v (h.rules.named name w v)
    ⟨rfl, rfl, h.stored⟩)

theorem declare (h : Sound w made) {type : EntityType}
    (known : ∀ p ∈ type.properties.values, p ∈ made ∨ ∃ id field, p = DateField.property id field) :
    Sound (w.after (declareType type)) made where
  taken := h.taken
  apart := h.apart
  declared other mem := by
    rcases Array.mem_push.mp mem with mem | rfl
    · exact h.declared other mem
    · exact known
  stored := h.stored

theorem beside (h : Sound w made) (only : Beside w w') : Sound w' made where
  taken p mem id key := only.nextSlot.symm ▸ h.taken p mem id key
  apart := h.apart
  declared type mem := h.declared type (only.types ▸ mem)
  stored r id v found := by
    rw [only.slots] at found
    exact (h.stored r id v found).mono fun s t typed => (only.typeId s).trans typed

theorem start : Sound .initial [] where
  taken _ mem := nomatch mem
  apart _ mem := nomatch mem
  declared _ mem := nomatch mem
  stored r id v found := by
    simp [World.slot?, World.instance?, World.initial] at found

end Sound

theorem Session.sound {w : World} {made : List Property} (h : Session w made) : Sound w made := by
  induction h with
  | start => exact .start
  | beside _ only ih => exact ih.beside only
  | @synthesize w made _ s known d ih =>
    have given := s.synthesize_makes d w
    unfold World.after
    cases ending : (s.synthesize d).run w with
    | error stop w' =>
      rw [ending] at given
      exact given.elim
    | ok result w' =>
      rw [ending] at given
      obtain ⟨outcome, left⟩ := result
      obtain ⟨spent, gives⟩ := given
      cases outcome with
      | error error => exact ih.spend spent
      | ok p =>
        rcases gives p rfl with remembered | new
        · exact (ih.spend spent).again (known p remembered)
        · exact ih.cons spent new
  | @byHand w _ _ kind own ih =>
    have spent : Spends w
        { w with nextSlot := w.nextSlot + 1, nextProperty := w.nextProperty + 1 } :=
      ⟨rfl, rfl, Nat.le_succ w.nextSlot⟩
    refine ih.cons spent fun id key => ?_
    rw [own id _ key]
    exact ⟨Nat.le_refl _, Nat.lt_succ_self _⟩
  | declare _ type known ih => exact ih.declare known
  | perform _ op depth known ih =>
    refine ih.perform ?_ depth
    cases op with
    | invoke p this args => exact obeys_owned_or_date (known p this args rfl)
    | _ => trivial
  | setField _ r name v ih => exact ih.setField r name v

end Accessors
