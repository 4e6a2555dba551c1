import Accessors.Proofs.Session

/-! The tables of a synthesizer. What a synthesizer remembers is what it would make anew, so
that each call on it gives what the call on a fresh one would give, failures included; the
only trace of earlier calls is that a shared property is given again. The invariant of a
history relates every result to the table of shared properties and to the counters. -/

namespace Accessors

def Shared.name? : Shared → Option String
  | readVar name | writeVar name => some name
  | undefined | null => none

namespace Options

def shared? (o : Options) : Option Shared :=
  match o.get, o.set, o.type, o.constant, o.var, o.default.filter (!·.isUndefined) with
  | some (.var name), .none, .none, .none, .none, .none => some (.readVar name)
  | .none, some (.var name), .none, .none, .none, .none => some (.writeVar name)
  | _, _, _, _, _, _ => .none

def boundName? (o : Options) : Option String :=
  match o.var, o.get, o.set with
  | some name, _, _ => some name
  | .none, some (.var name), .none => some name
  | .none, .none, some (.var name) => some name
  | _, _, _ => .none

end Options

namespace Descriptor

def shared? : Descriptor → Option Shared
  | shortcut "undefined" => some .undefined
  | shortcut "null" => some .null
  | options o => o.shared?
  | _ => none

def boundName? : Descriptor → Option String
  | shortcut text => if text.toList.head? = some '_' then some text else none
  | options o => o.boundName?
  | _ => none

end Descriptor

/-- A property bound to just that storage name, if any; a generated key was made between two
worlds. -/
structure Property.KeyedBy (bound : Option String) (w w' : World) (p : Property) : Prop where
  named : ∀ name, p.storageKey? = some (.named name) ↔ bound = some name
  generated : p.NewBetween w w'

namespace Synthesizer
variable {s s₀ : Synthesizer} {w : World}

structure Faithful (s : Synthesizer) : Prop where
  kinds : ∀ entry ∈ s.made, entry.2.kind = entry.1.kind
  names : ∀ entry ∈ s.camelNames, entry.2 = camel entry.1

/-- What a successful call adds: nothing when a shared property is remembered, a shared property,
or a property of its own. -/
inductive Gain (s : Synthesizer) (w : World) :
    Option Shared → Option String → Property → Synthesizer → World → Prop
  | remembered {shared : Shared} {p : Property} (found : s.made.lookup shared = some p) :
    Gain s w (some shared) shared.name? p s w
  | shared {shared : Shared} (unknown : s.made.lookup shared = none) :
    Gain s w (some shared) shared.name? ⟨w.nextProperty, shared.kind⟩
      { s with made := (shared, ⟨w.nextProperty, shared.kind⟩) :: s.made }
      { w with nextProperty := w.nextProperty + 1 }
  | own {bound : Option String} {kind : PropertyKind} {s' : Synthesizer} {w' : World}
    (made : s'.made = s.made) (faithful : s'.Faithful)
    (count : w'.nextProperty = w.nextProperty + 1) (slots : w.nextSlot ≤ w'.nextSlot)
    (keyed : Property.KeyedBy bound w w' ⟨w.nextProperty, kind⟩) :
    Gain s w none bound ⟨w.nextProperty, kind⟩ s' w'

/-- What a refused call leaves: it may have put a name into camel case or taken a key. -/
structure Leaves (s : Synthesizer) (w : World) (s' : Synthesizer) (w' : World) : Prop where
  made : s'.made = s.made
  faithful : s'.Faithful
  count : w'.nextProperty = w.nextProperty
  slots : w.nextSlot ≤ w'.nextSlot

def Ends (s : Synthesizer) (w : World) (shared : Option Shared) (bound : Option String) :
    Ending Result → Ending Result → Prop
  | .ok (.ok p, s') w', .ok (.ok q, _) _ => p.kind = q.kind ∧ s.Gain w shared bound p s' w'
  | .ok (.error error, s') w', .ok (.error other, _) _ => error = other ∧ s.Leaves w s' w'
  | _, _ => False

theorem Faithful.initial : Synthesizer.initial.Faithful where
  kinds _ mem := nomatch mem
  names _ mem := nomatch mem

theorem Faithful.camelName (h : s.Faithful) (name : String) :
    (s.camelName name).1 = camel name ∧ (s.camelName name).2.Faithful := by
  unfold Synthesizer.camelName
  split
  · rename_i cased found
    obtain ⟨before, after, split, _⟩ := List.lookup_eq_some_iff.mp found
    exact ⟨h.names (name, cased) (by simp [split]), h⟩
  · refine ⟨rfl, h.kinds, fun entry mem => ?_⟩
    rcases List.mem_cons.mp mem with rfl | mem
    · rfl
    · exact h.names entry mem

theorem share_gain (h : s.Faithful) (shared : Shared) (w : World) :
    ∃ p s' w', (s.share shared).run w = .ok (.ok p, s') w' ∧ p.kind = shared.kind ∧
      s.Gain w (some shared) shared.name? p s' w' := by
  unfold share
  cases found : s.made.lookup shared with
  | some p =>
    obtain ⟨before, after, split, _⟩ := List.lookup_eq_some_iff.mp found
    exact ⟨p, s, w, rfl, h.kinds (shared, p) (by simp [split]), .remembered found⟩
  | none => exact ⟨_, _, _, rfl, rfl, .shared found⟩

variable {shared : Option Shared} {bound : Option String}

theorem Leaves.refl (h : s.Faithful) (w : World) : s.Leaves w s w :=
  ⟨rfl, h, rfl, Nat.le_refl _⟩

theorem Ends.refuse {s' s₀' : Synthesizer} {w' : World} (left : s.Leaves w s' w') (error : Error) :
    s.Ends w shared bound ((s'.refuse error).run w') ((s₀'.refuse error).run w') :=
  ⟨rfl, left⟩

theorem Ends.checked {α : Type} {s' s₀' : Synthesizer} {w' : World} {x : Except Error α}
    {k k₀ : α → Action Result} (left : s.Leaves w s' w')
    (h : ∀ a, x = .ok a → s.Ends w shared bound ((k a).run w') ((k₀ a).run w')) :
    s.Ends w shared bound ((s'.checked x k).run w') ((s₀'.checked x k₀).run w') := by
  cases x with
  | ok a => exact h a rfl
  | error error => exact .refuse left error

theorem Ends.share (h : s.Faithful) (h₀ : s₀.Faithful) (asked : Shared) :
    s.Ends w (some asked) asked.name? ((s.share asked).run w) ((s₀.share asked).run w) := by
  obtain ⟨p, s', w', run, kind, gain⟩ := share_gain h asked w
  obtain ⟨q, _, _, run₀, kind₀, _⟩ := share_gain h₀ asked w
  rw [run, run₀]
  exact ⟨kind.trans kind₀.symm, gain⟩

theorem Ends.unshared (h : s.Faithful) {kind : PropertyKind}
    (slotless : ∀ id, Property.storageKey? ⟨id, kind⟩ = none) :
    s.Ends w none none ((s.unshared kind).run w) ((s₀.unshared kind).run w) := by
  refine ⟨rfl, .own rfl h rfl (Nat.le_refl _) ⟨fun name => ?_, fun id key => ?_⟩⟩
  · rw [slotless]
    simp
  · rw [slotless] at key
    cases key

theorem Faithful.constructorOf (h : s.Faithful) (h₀ : s₀.Faithful) (type : TypeRef) :
    (s.constructorOf type).1 = (s₀.constructorOf type).1 ∧ (s.constructorOf type).2.Faithful ∧
      (s.constructorOf type).2.made = s.made := by
  cases type with
  | entity type => exact ⟨rfl, h, rfl⟩
  | name name =>
    obtain ⟨cased, faithful⟩ := h.camelName name
    obtain ⟨cased₀, _⟩ := h₀.camelName name
    exact ⟨congrArg resolve (cased.trans cased₀.symm), faithful, s.made_camelName name⟩

theorem Faithful.shortcutOptions (h : s.Faithful) (h₀ : s₀.Faithful) (text : String) :
    (s.shortcutOptions text).1 = (s₀.shortcutOptions text).1 ∧
      (s.shortcutOptions text).2.Faithful := by
  unfold Synthesizer.shortcutOptions
  split
  · exact ⟨rfl, h⟩
  · obtain ⟨cased, faithful⟩ := h.camelName text
    obtain ⟨cased₀, _⟩ := h₀.camelName text
    dsimp only
    rw [cased, cased₀]
    split <;> exact ⟨rfl, faithful⟩

theorem Ends.keeping (h : s.Faithful) (h₀ : s₀.Faithful) (key : StorageKey) (w₁ : World)
    (count : w₁.nextProperty = w.nextProperty) (slots : w.nextSlot ≤ w₁.nextSlot)
    (named : ∀ name, key = .named name ↔ bound = some name)
    (taken : ∀ id, key = .generated id → w.nextSlot ≤ id ∧ id < w₁.nextSlot)
    (type : Option TypeRef) (default : Option Value) :
    s.Ends w none bound ((s.keeping key type default).run w₁)
      ((s₀.keeping key type default).run w₁) := by
  have own {kind : PropertyKind} {s' : Synthesizer} (made : s'.made = s.made)
      (faithful : s'.Faithful) (place : Property.storageKey? ⟨w.nextProperty, kind⟩ = some key) :
      s.Gain w none bound ⟨w₁.nextProperty, kind⟩ s'
        { w₁ with nextProperty := w₁.nextProperty + 1 } := by
    have id : (⟨w₁.nextProperty, kind⟩ : Property) = ⟨w.nextProperty, kind⟩ := by rw [count]
    rw [id]
    refine .own made faithful (congrArg (· + 1) count) slots ⟨fun name => ?_, fun id own => ?_⟩
    · rw [place, Option.some.injEq]
      exact named name
    · rw [place] at own
      exact taken id (Option.some.inj own)
  unfold Synthesizer.keeping
  cases type with
  | some type =>
    obtain ⟨same, faithful, made⟩ := h.constructorOf h₀ type
    dsimp only
    rw [same, EStateM.run_bind, EStateM.run_get, EStateM.run_bind, EStateM.run_get]
    exact .checked ⟨made, faithful, count, slots⟩ fun c _ => ⟨rfl, own made faithful rfl⟩
  | none =>
    exact .checked ⟨rfl, h, count, slots⟩ fun policy _ => ⟨rfl, own rfl h rfl⟩

theorem Ends.stored (h : s.Faithful) (h₀ : s₀.Faithful) (type : Option TypeRef)
    (default : Option Value) (var : Option String) :
    s.Ends w none var ((s.stored type default var).run w) ((s₀.stored type default var).run w) := by
  cases var with
  | some name =>
    refine Ends.keeping h h₀ (.named name) w rfl (Nat.le_refl _) (by simp) (fun _ eq => ?_)
      type default
    cases eq
  | none =>
    let taken := { w with nextSlot := w.nextSlot + 1 }
    show s.Ends w none none ((s.keeping (.generated w.nextSlot) type default).run taken)
      ((s₀.keeping (.generated w.nextSlot) type default).run taken)
    refine Ends.keeping (w := w) h h₀ (.generated w.nextSlot) taken rfl (Nat.le_succ _) (by simp)
      (fun id eq => ?_) type default
    cases eq
    exact ⟨Nat.le_refl _, Nat.lt_succ_self _⟩

theorem Ends.accessor (h : s.Faithful) (h₀ : s₀.Faithful) (get : Option GetOption)
    (set : Option SetOption) :
    let o := { Options.none with get, set }
    s.Ends w o.shared? o.boundName? ((s.accessor get set).run w) ((s₀.accessor get set).run w) := by
  intro o
  have left : s.Leaves w s w := .refl h w
  unfold Synthesizer.accessor
  split
  · exact .unshared h fun _ => rfl
  · exact .checked left fun _ _ => .share h h₀ _
  · exact .unshared h fun _ => rfl
  · exact .checked left fun _ _ => .share h h₀ _
  · exact .unshared h fun _ => rfl
  · exact .refuse left _
  · exact .refuse left _

theorem Ends.ifElse {c : Prop} [Decidable c] {a b a₀ b₀ : Action Result}
    (left : c → s.Ends w shared bound (a.run w) (a₀.run w))
    (right : ¬ c → s.Ends w shared bound (b.run w) (b₀.run w)) :
    s.Ends w shared bound ((if c then a else b).run w) ((if c then a₀ else b₀).run w) := by
  split
  · exact left ‹_›
  · exact right ‹_›

theorem Ends.declared (h : s.Faithful) (h₀ : s₀.Faithful) (o : Options) :
    s.Ends w o.shared? o.boundName? ((s.declared o).run w) ((s₀.declared o).run w) := by
  obtain ⟨get, set, type, default, constant, var⟩ := o
  have left : s.Leaves w s w := .refl h w
  unfold Synthesizer.declared
  dsimp only
  split
  · refine .ifElse (fun _ => .refuse left _) fun alone => ?_
    simp only [Bool.or_eq_true, not_or, Option.not_isSome_iff_eq_none] at alone
    obtain ⟨⟨⟨⟨rfl, rfl⟩, rfl⟩, rfl⟩, _⟩ := alone
    exact .unshared h fun _ => rfl
  · refine .ifElse (fun _ => .ifElse (fun _ => .refuse left _) fun alone => ?_) fun neither => ?_
    · simp only [Bool.or_eq_true, not_or, Option.not_isSome_iff_eq_none] at alone
      obtain ⟨⟨rfl, rfl⟩, unset⟩ := alone
      have shared : Options.shared? ⟨get, set, none, default, none, none⟩ =
          Options.shared? { Options.none with get, set } := by
        unfold Options.shared?
        rw [unset]
        rfl
      rw [shared]
      exact .accessor h h₀ get set
    · simp only [Bool.or_eq_true, not_or, Option.not_isSome_iff_eq_none] at neither
      obtain ⟨rfl, rfl⟩ := neither
      have bound : Options.boundName? ⟨none, none, type, default, none, var⟩ = var := by
        cases var <;> rfl
      rw [bound]
      exact .stored h h₀ type _ var

theorem Ends.fromOptions (h : s.Faithful) (h₀ : s₀.Faithful) (o : Options) :
    s.Ends w o.shared? o.boundName? ((s.fromOptions o).run w) ((s₀.fromOptions o).run w) :=
  .checked (.refl h w) fun _ _ => .declared h h₀ o

theorem Ends.of_made {e e₀ : Ending Result} (same : s₀.made = s.made)
    (h : s₀.Ends w none bound e e₀) : s.Ends w none bound e e₀ := by
  unfold Ends at h ⊢
  split at h
  · obtain ⟨kind, gain⟩ := h
    cases gain with
    | own made faithful count slots keyed =>
      exact ⟨kind, .own (made.trans same) faithful count slots keyed⟩
  · obtain ⟨error, left⟩ := h
    exact ⟨error, left.made.trans same, left.faithful, left.count, left.slots⟩
  · exact h.elim

theorem shortcutOptions_declares {text : String} {o : Options}
    (found : (s.shortcutOptions text).1 = .ok o) :
    o.shared? = none ∧ o.boundName? = (Descriptor.shortcut text).boundName? := by
  unfold Synthesizer.shortcutOptions at found
  split at found
  · rename_i underscore
    cases found
    exact ⟨rfl, (if_pos underscore).symm⟩
  · rename_i other
    dsimp only at found
    split at found
    · cases found
      exact ⟨rfl, (if_neg other).symm⟩
    · cases found

theorem Ends.synthesize (h : s.Faithful) (h₀ : s₀.Faithful) (d : Descriptor) :
    s.Ends w d.shared? d.boundName? ((s.synthesize d).run w) ((s₀.synthesize d).run w) := by
  unfold Synthesizer.synthesize
  split
  · exact Ends.fromOptions h h₀ Options.none
  · exact Ends.share h h₀ .undefined
  · exact Ends.share h h₀ .null
  · rename_i text notUndefined notNull
    obtain ⟨same, faithful⟩ := h.shortcutOptions h₀ text
    obtain ⟨_, faithful₀⟩ := h₀.shortcutOptions h₀ text
    have made := s.made_shortcutOptions text
    have unshared : (Descriptor.shortcut text).shared? = none := by
      unfold Descriptor.shared?
      split <;> simp_all
    rw [unshared]
    dsimp only
    rw [same]
    refine .checked ⟨made, faithful, rfl, Nat.le_refl _⟩ fun o found => ?_
    obtain ⟨alone, bound⟩ := shortcutOptions_declares (same.trans found)
    have ends := Ends.fromOptions faithful faithful₀ o (w := w)
    rw [alone, bound] at ends
    exact ends.of_made made
  · exact Ends.fromOptions h h₀ { Options.none with constant := some _ }
  · exact Ends.fromOptions h h₀ { Options.none with type := some _ }
  · exact Ends.fromOptions h h₀ _

end Synthesizer

/-- A call on a synthesizer: what was asked for in which world, and what came of it. -/
structure Attempt where
  descriptor : Descriptor
  world : World
  outcome : Except Error Property

theorem Property.invoke_of_kind {p q : Property} (same : p.kind = q.kind) (e : Engine)
    (this : Value) (args : List Value) : p.invoke e this args = q.invoke e this args := by
  cases args <;> simp only [invoke, same]

namespace Attempt

def SameOutcome : Except Error Property → Ending Synthesizer.Result → Prop
  | .ok p, .ok (.ok fresh, _) _ =>
    p.kind = fresh.kind ∧ ∀ e this args, p.invoke e this args = fresh.invoke e this args
  | .error error, .ok (.error other, _) _ => error = other
  | _, _ => False

/-- The outcome is that of the same call on a fresh synthesizer. -/
def AsFresh (a : Attempt) : Prop :=
  SameOutcome a.outcome ((Synthesizer.initial.synthesize a.descriptor).run a.world)

/-- Two results are the same property just when the descriptors ask for the same shared one, and
have the same storage key just when the descriptors declare the same name. -/
def ShareAsDeclared (d d' : Descriptor) (p q : Property) : Prop :=
  (p.id = q.id ↔ ∃ shared, d.shared? = some shared ∧ d'.shared? = some shared) ∧
    ((∃ key, p.storageKey? = some key ∧ q.storageKey? = some key) ↔
      ∃ name, d.boundName? = some name ∧ d'.boundName? = some name)

end Attempt

namespace Synthesizer.Ends
variable {s s' : Synthesizer} {w w' : World} {shared : Option Shared} {bound : Option String}
  {e₀ : Ending Result}

theorem gain {p : Property} (h : s.Ends w shared bound (.ok (.ok p, s') w') e₀) :
    s.Gain w shared bound p s' w' := by
  rcases e₀ with ⟨_ | q, _⟩ | _
  · exact h.elim
  · exact h.2
  · exact h.elim

theorem leaves {error : Error} (h : s.Ends w shared bound (.ok (.error error, s') w') e₀) :
    s.Leaves w s' w' := by
  rcases e₀ with ⟨other | _, _⟩ | _
  · exact h.2
  · exact h.elim
  · exact h.elim

theorem sameOutcome {outcome : Except Error Property}
    (h : s.Ends w shared bound (.ok (outcome, s') w') e₀) : Attempt.SameOutcome outcome e₀ := by
  rcases outcome with error | p <;> rcases e₀ with ⟨other | q, _⟩ | _
  · exact h.1
  · exact h.elim
  · exact h.elim
  · exact h.elim
  · exact ⟨h.1, Property.invoke_of_kind h.1⟩
  · exact h.elim

end Synthesizer.Ends

/-- Calls on one synthesizer, the earliest first. Anything may happen between two calls, but no
number is given out twice. -/
inductive Synthesis : World → Synthesizer → List Attempt → Prop
  | start (w : World) : Synthesis w .initial []
  | meanwhile {w w' : World} {s : Synthesizer} {attempts : List Attempt}
      (sofar : Synthesis w s attempts) (slots : w.nextSlot ≤ w'.nextSlot)
      (properties : w.nextProperty ≤ w'.nextProperty) : Synthesis w' s attempts
  | called {w w' : World} {s s' : Synthesizer} {attempts : List Attempt} {d : Descriptor}
      {outcome : Except Error Property} (sofar : Synthesis w s attempts)
      (ran : (s.synthesize d).run w = .ok (outcome, s') w') :
      Synthesis w' s' (attempts ++ [⟨d, w, outcome⟩])

namespace Synthesizer
variable {s s' : Synthesizer} {w w' : World} {shared : Option Shared} {bound : Option String}
  {p q : Property} {a : Attempt}

structure Settled (s : Synthesizer) (w : World) : Prop where
  faithful : s.Faithful
  older : ∀ entry ∈ s.made, entry.2.id < w.nextProperty
  apart : ∀ a ∈ s.made, ∀ b ∈ s.made, a.2.id = b.2.id → a.1 = b.1

structure Recorded (s : Synthesizer) (w : World) (d : Descriptor) (p : Property) : Prop where
  older : p.id < w.nextProperty
  shared : ∀ shared, d.shared? = some shared → s.made.lookup shared = some p
  own : d.shared? = none → ∀ entry ∈ s.made, entry.2.id ≠ p.id
  named : ∀ name, p.storageKey? = some (.named name) ↔ d.boundName? = some name
  taken : ∀ id, p.storageKey? = some (.generated id) → id < w.nextSlot

theorem Settled.of_made (h : s.Settled w) (same : s'.made = s.made) (faithful : s'.Faithful)
    (properties : w.nextProperty ≤ w'.nextProperty) : s'.Settled w' where
  faithful := faithful
  older entry mem := Nat.lt_of_lt_of_le (h.older entry (same ▸ mem)) properties
  apart a ha b hb := h.apart a (same ▸ ha) b (same ▸ hb)

theorem Recorded.of_made {d : Descriptor} (h : s.Recorded w d p) (same : s'.made = s.made)
    (properties : w.nextProperty ≤ w'.nextProperty) (slots : w.nextSlot ≤ w'.nextSlot) :
    s'.Recorded w' d p where
  older := Nat.lt_of_lt_of_le h.older properties
  shared asked found := same ▸ h.shared asked found
  own unshared entry mem := h.own unshared entry (same ▸ mem)
  named := h.named
  taken id key := Nat.lt_of_lt_of_le (h.taken id key) slots

theorem Settled.gain (h : s.Settled w) (gain : s.Gain w shared bound p s' w') : s'.Settled w' := by
  cases gain with
  | remembered _ => exact h
  | @shared asked unknown =>
    refine ⟨⟨fun entry mem => ?_, h.faithful.names⟩, fun entry mem => ?_, fun a ha b hb same => ?_⟩
    · rcases List.mem_cons.mp mem with rfl | mem
      · rfl
      · exact h.faithful.kinds entry mem
    · rcases List.mem_cons.mp mem with rfl | mem
      · exact Nat.lt_succ_self _
      · exact Nat.lt_succ_of_lt (h.older entry mem)
    · rcases List.mem_cons.mp ha with rfl | ha <;> rcases List.mem_cons.mp hb with rfl | hb
      · rfl
      · exact absurd same.symm (Nat.ne_of_lt (h.older b hb))
      · exact absurd same (Nat.ne_of_lt (h.older a ha))
      · exact h.apart a ha b hb same
  | own made faithful count slots keyed => exact h.of_made made faithful (count ▸ Nat.le_succ _)

theorem Recorded.gain {d : Descriptor} (h : s.Recorded w d q)
    (gain : s.Gain w shared bound p s' w') : s'.Recorded w' d q := by
  cases gain with
  | remembered _ => exact h
  | @shared asked unknown =>
    refine ⟨Nat.lt_succ_of_lt h.older, fun other found => ?_, fun unshared entry mem => ?_, h.named,
      h.taken⟩
    · have there := h.shared other found
      have different : other ≠ asked := by
        rintro rfl
        rw [unknown] at there
        cases there
      rw [List.lookup_cons, beq_false_of_ne different]
      exact there
    · rcases List.mem_cons.mp mem with rfl | mem
      · exact Nat.ne_of_gt h.older
      · exact h.own unshared entry mem
  | own made _ count slots _ => exact h.of_made made (count ▸ Nat.le_succ _) slots

theorem mem_of_lookup {asked : Shared} (found : s.made.lookup asked = some p) :
    (asked, p) ∈ s.made := by
  obtain ⟨before, after, split, _⟩ := List.lookup_eq_some_iff.mp found
  simp [split]

theorem storageKey?_shared {asked : Shared} (kind : p.kind = asked.kind) :
    p.storageKey? = asked.name?.map .named := by
  unfold Property.storageKey?
  rw [kind]
  cases asked <;> rfl

theorem not_generated_of_shared {asked : Shared} (kind : p.kind = asked.kind) (id : Nat) :
    p.storageKey? ≠ some (.generated id) := by
  rw [storageKey?_shared kind]
  cases asked.name? <;> simp

theorem Gain.generated (h : s.Settled w) (gain : s.Gain w shared bound p s' w') {id : Nat}
    (key : p.storageKey? = some (.generated id)) : w.nextSlot ≤ id := by
  cases gain with
  | remembered found =>
    exact absurd key (not_generated_of_shared (h.faithful.kinds _ (mem_of_lookup found)) id)
  | @shared asked _ => exact absurd key (not_generated_of_shared (p := ⟨_, asked.kind⟩) rfl id)
  | own _ _ _ _ keyed => exact (keyed.generated id key).1

theorem Gain.own_id (gain : s.Gain w none bound p s' w') : p.id = w.nextProperty := by
  cases gain
  rfl

theorem Recorded.of_gain {d : Descriptor} (h : s.Settled w)
    (gain : s.Gain w d.shared? d.boundName? p s' w') : s'.Recorded w' d p := by
  have of_shared {asked : Shared} (kind : p.kind = asked.kind) (askedFor : d.shared? = some asked)
      (declared : d.boundName? = asked.name?) (older : p.id < w'.nextProperty)
      (remembered : s'.made.lookup asked = some p) : s'.Recorded w' d p := by
    refine ⟨older, fun other again => ?_, fun unshared => ?_, fun name => ?_, fun id key => ?_⟩
    · rw [askedFor] at again
      cases again
      exact remembered
    · rw [askedFor] at unshared
      cases unshared
    · rw [storageKey?_shared kind, declared]
      simp
    · exact absurd key (not_generated_of_shared kind id)
  generalize askedFor : d.shared? = shared at gain
  generalize declared : d.boundName? = bound at gain
  cases gain with
  | @remembered asked _ found =>
    have mem := mem_of_lookup found
    exact of_shared (h.faithful.kinds _ mem) askedFor declared (h.older _ mem) found
  | shared unknown =>
    exact of_shared rfl askedFor declared (Nat.lt_succ_self _) (by simp)
  | own made faithful count slots keyed =>
    refine ⟨count ▸ Nat.lt_succ_self _, fun other again => ?_, fun _ entry mem => ?_,
      fun name => ?_, fun id key => (keyed.generated id key).2⟩
    · rw [askedFor] at again
      cases again
    · exact Nat.ne_of_lt (h.older entry (made ▸ mem))
    · rw [declared]
      exact keyed.named name

theorem Recorded.shares {d d' : Descriptor} (earlier : s.Recorded w d q) (h : s.Settled w)
    (gain : s.Gain w d'.shared? d'.boundName? p s' w') : Attempt.ShareAsDeclared d d' q p := by
  have later := Recorded.of_gain h gain
  have kept := earlier.gain gain
  refine ⟨⟨fun same => ?_, ?_⟩, ?_, ?_⟩
  · cases first : d.shared? with
    | some asked =>
      have there := mem_of_lookup (kept.shared asked first)
      cases second : d'.shared? with
      | some other =>
        have here := mem_of_lookup (later.shared other second)
        have eq : asked = other := (h.gain gain).apart _ there _ here same
        exact ⟨asked, rfl, congrArg some eq.symm⟩
      | none => exact absurd same (later.own second _ there)
    | none =>
      cases second : d'.shared? with
      | some other =>
        have here := mem_of_lookup (later.shared other second)
        exact absurd same.symm (kept.own first _ here)
      | none =>
        rw [second] at gain
        exact absurd (same.trans gain.own_id) (Nat.ne_of_lt earlier.older)
  · rintro ⟨asked, first, second⟩
    have found := kept.shared asked first
    rw [later.shared asked second] at found
    cases found
    rfl
  · rintro ⟨key, first, second⟩
    cases key with
    | named name => exact ⟨name, (earlier.named name).mp first, (later.named name).mp second⟩
    | generated id =>
      exact absurd (gain.generated h second) (Nat.not_le.mpr (earlier.taken id first))
  · rintro ⟨name, first, second⟩
    exact ⟨.named name, (earlier.named name).mpr first, (later.named name).mpr second⟩

end Synthesizer

structure Synthesis.Invariant (w : World) (s : Synthesizer) (attempts : List Attempt) : Prop where
  settled : s.Settled w
  fresh : ∀ a ∈ attempts, a.AsFresh
  recorded : ∀ a ∈ attempts, ∀ p, a.outcome = .ok p → s.Recorded w a.descriptor p
  shares : attempts.Pairwise fun a b => ∀ p q, a.outcome = .ok p → b.outcome = .ok q →
    Attempt.ShareAsDeclared a.descriptor b.descriptor p q

namespace Synthesis.Invariant
variable {w w' : World} {s s' : Synthesizer} {attempts : List Attempt} {d : Descriptor}

theorem start (w : World) : Synthesis.Invariant w .initial [] where
  settled :=
    { faithful := .initial
      older := fun _ mem => nomatch mem
      apart := fun _ mem => nomatch mem }
  fresh := by simp
  recorded := by simp
  shares := .nil

theorem meanwhile (h : Synthesis.Invariant w s attempts) (slots : w.nextSlot ≤ w'.nextSlot)
    (properties : w.nextProperty ≤ w'.nextProperty) : Synthesis.Invariant w' s attempts where
  settled := h.settled.of_made rfl h.settled.faithful properties
  fresh := h.fresh
  recorded a mem p made := (h.recorded a mem p made).of_made rfl properties slots
  shares := h.shares

theorem made {p : Property} (h : Synthesis.Invariant w s attempts)
    (ran : (s.synthesize d).run w = .ok (.ok p, s') w') :
    Synthesis.Invariant w' s' (attempts ++ [⟨d, w, .ok p⟩]) := by
  have ends := Synthesizer.Ends.synthesize (w := w) h.settled.faithful .initial d
  rw [ran] at ends
  have gain := ends.gain
  refine ⟨h.settled.gain gain, fun a mem => ?_, fun a mem q ok => ?_, ?_⟩
  · rcases List.mem_append.mp mem with earlier | new
    · exact h.fresh a earlier
    · exact List.mem_singleton.mp new ▸ ends.sameOutcome
  · rcases List.mem_append.mp mem with earlier | new
    · exact (h.recorded a earlier q ok).gain gain
    · cases List.mem_singleton.mp new
      cases ok
      exact .of_gain h.settled gain
  · refine List.pairwise_append.mpr ⟨h.shares, List.pairwise_singleton _ _, fun a mem b new => ?_⟩
    cases List.mem_singleton.mp new
    rintro q _ first ⟨⟩
    exact (h.recorded a mem q first).shares h.settled gain

theorem refused {error : Error} (h : Synthesis.Invariant w s attempts)
    (ran : (s.synthesize d).run w = .ok (.error error, s') w') :
    Synthesis.Invariant w' s' (attempts ++ [⟨d, w, .error error⟩]) := by
  have ends := Synthesizer.Ends.synthesize (w := w) h.settled.faithful .initial d
  rw [ran] at ends
  obtain ⟨same, faithful, count, slots⟩ := ends.leaves
  have properties := Nat.le_of_eq count.symm
  refine ⟨h.settled.of_made same faithful properties, fun a mem => ?_, fun a mem q ok => ?_, ?_⟩
  · rcases List.mem_append.mp mem with earlier | new
    · exact h.fresh a earlier
    · exact List.mem_singleton.mp new ▸ ends.sameOutcome
  · rcases List.mem_append.mp mem with earlier | new
    · exact (h.recorded a earlier q ok).of_made same properties slots
    · cases List.mem_singleton.mp new
      cases ok
  · refine List.pairwise_append.mpr ⟨h.shares, List.pairwise_singleton _ _, fun a mem b new => ?_⟩
    cases List.mem_singleton.mp new
    rintro _ _ _ ⟨⟩

end Synthesis.Invariant

theorem Synthesis.invariant {w : World} {s : Synthesizer} {attempts : List Attempt}
    (h : Synthesis w s attempts) : Synthesis.Invariant w s attempts := by
  induction h with
  | start w => exact .start w
  | meanwhile _ slots properties ih => exact ih.meanwhile slots properties
  | @called _ _ _ _ _ _ outcome _ ran ih =>
    cases outcome with
    | ok p => exact ih.made ran
    | error error => exact ih.refused ran

/-- The tables of a synthesizer do not show, but for what is shared. In every sequence of calls,
failures among them, each call comes to what it would come to on a fresh synthesizer, and a result
is bound to just the storage name that its descriptor declares. Of two calls the results are the
same property just when both ask for the reader of one name, for the writer of one name, for
`undefined` or for `null`; their storage keys are equal just when both descriptors declare the same
name, and two generated keys never are. -/
theorem synthesizer_tables_unobserved {w : World} {s : Synthesizer} {attempts : List Attempt}
    (h : Synthesis w s attempts) :
    (∀ a ∈ attempts, a.AsFresh ∧ ∀ p, a.outcome = .ok p → ∀ name,
      p.storageKey? = some (.named name) ↔ a.descriptor.boundName? = some name) ∧
      attempts.Pairwise fun a b => ∀ p q, a.outcome = .ok p → b.outcome = .ok q →
        Attempt.ShareAsDeclared a.descriptor b.descriptor p q ∧
          ∀ i j, p.storageKey? = some (.generated i) → q.storageKey? = some (.generated j) →
            i ≠ j := by
  have inv := h.invariant
  refine ⟨fun a mem => ⟨inv.fresh a mem, fun p ok => (inv.recorded a mem p ok).named⟩, ?_⟩
  refine inv.shares.imp_of_mem fun {a b} memA memB shares p q okA okB => ?_
  obtain ⟨same, bound⟩ := shares p q okA okB
  refine ⟨⟨same, bound⟩, ?_⟩
  rintro i _ keyA keyB rfl
  obtain ⟨name, declared, _⟩ := bound.mp ⟨_, keyA, keyB⟩
  have named := ((inv.recorded a memA p okA).named name).mpr declared
  rw [keyA] at named
  cases named

/-- The reader of a name is made, a name is refused, and the reader is asked for again: it is the
one from before, while a property of its own is another one. -/
theorem reader_shared_across_refusal :
    let reader := Descriptor.options { Options.none with get := some (.var "_a") }
    let p : Property := ⟨9, .readOnly (.slot (.named "_a"))⟩
    let q : Property := ⟨10, .basic (.generated 0) .undefined .identity⟩
    let w := { World.initial with nextProperty := 10 }
    let attempts : List Attempt :=
      [⟨reader, .initial, .ok p⟩,
        ⟨.shortcut "nope", w, .error (.unknownType "nope is neither a var name nor a type name")⟩,
        ⟨reader, w, .ok p⟩, ⟨.basic, w, .ok q⟩]
    (∃ w' s, Synthesis w' s attempts) ∧ ∀ a ∈ attempts, a.AsFresh := by
  intro reader p q w attempts
  have first : Synthesis w ⟨[(.readVar "_a", p)], []⟩ [⟨reader, .initial, .ok p⟩] :=
    (Synthesis.start .initial).called rfl
  have second := first.called (d := .shortcut "nope") rfl
  have calls := (second.called (d := reader) rfl).called (d := .basic) rfl
  exact ⟨⟨_, _, calls⟩, fun a mem => ((synthesizer_tables_unobserved calls).1 a mem).1⟩

end Accessors
