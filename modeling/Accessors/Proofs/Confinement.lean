import Accessors.Proofs.Operations

/-! Calls that meet no entity stay where they are. In a region without entities there are no
user functions to be found: evaluating instructions, to any depth, changes only objects of
the region, and invoking a basic property or a typed property of a native type changes
besides them only the property's own slot. -/

namespace Accessors

namespace Region

def Plain (R : Region) : Prop := ∀ r, ¬ R.entity r

def withinOutcome (R : Region) : Outcome → Prop
  | .read v | .write v => R.within v
  | .request | .done => True

variable {R : Region}

theorem Plain.isEntity (plain : R.Plain) {v : Value} (h : R.within v) : v.isEntity = false := by
  cases v with
  | entity r => exact absurd h (plain r)
  | _ => rfl

theorem Plain.ownMethod? (plain : R.Plain) (w : World) {v : Value} (h : R.within v)
    (name : String) : w.ownMethod? v name = none :=
  w.ownMethod?_plain (plain.isEntity h) name

theorem withinOutcome_of {v : Value} (h : R.within v) (assign : Bool) :
    R.withinOutcome (.of v assign) := by
  cases assign <;> exact h

theorem within_apply {w : World} (op : Operator) {lhs rhs : Value} (left : R.within lhs)
    (right : R.within rhs) : R.within (op.apply w lhs rhs) := by
  cases op with
  | or | and =>
    simp only [Operator.apply]
    split <;> assumption
  | add | reverseAdd =>
    simp only [Operator.apply, World.add]
    split <;> exact trivial
  | _ => exact trivial

end Region

def NativeOwner (owner : Option Constructor) : Prop :=
  ∀ t, owner ≠ some (.entity t)

theorem NativeOwner.none : NativeOwner none := fun _ h => nomatch h

theorem NativeOwner.native (t : NativeType) : NativeOwner (some (.native t)) :=
  fun _ h => nomatch h

namespace NativeOwner
variable {owner : Option Constructor} (native : NativeOwner owner) (w : World)
include native

theorem override? (op : Operator) : w.override? owner op = Option.none := by
  unfold World.override?
  split
  · exact absurd rfl (native _)
  · rfl

theorem behavior? {table : EntityType}
    (found : owner.bind (·.behavior? w) = some table) : table = dateBehavior := by
  obtain ⟨c, rfl, behaves⟩ := Option.bind_eq_some_iff.mp found
  unfold Constructor.behavior? at behaves
  split at behaves
  · cases behaves
    rfl
  · cases behaves
  · exact absurd rfl (native _)

theorem method? (name : String) :
    (owner.bind (·.behavior? w)).bind (·.method? name) = Option.none := by
  cases found : owner.bind (·.behavior? w) with
  | none => rfl
  | some table =>
    rw [native.behavior? w found]
    exact Table.get?_eq .empty name

theorem findProperty? {v : Value} (plain : v.isEntity = false) {name : String} {p : Property}
    (found : w.findProperty? v owner name = some p) : dateBehavior.property? name = some p := by
  unfold World.findProperty? at found
  rcases Option.or_eq_some_iff.mp found with found | ⟨_, found⟩
  · split at found
    · cases plain
    · cases found
  · rcases Option.or_eq_some_iff.mp found with found | ⟨_, found⟩
    · obtain ⟨table, behaves, found⟩ := Option.bind_eq_some_iff.mp found
      rw [native.behavior? w behaves] at found
      exact found
    · split at found
      · exact found
      · cases found

end NativeOwner

theorem unwrapNested_plain {e : Engine} {v : Value} (plain : v.isEntity = false) :
    unwrapNested e v = pure v := by
  cases v <;> first | rfl | cases plain

section
variable {r : Ref} {key : StorageKey} {w : World}

theorem World.filled_or_empty (w : World) (r : Ref) (key : StorageKey) :
    (∃ v, w.slot? r key = some v ∧ v.isUndefined = false) ∨
      ∀ v, w.slot? r key = some v → v.isUndefined = true := by
  cases found : w.slot? r key with
  | none => exact .inr fun _ h => nomatch h
  | some v =>
    cases defined : v.isUndefined with
    | false => exact .inl ⟨v, rfl, defined⟩
    | true =>
      refine .inr fun u same => ?_
      rw [← Option.some.inj same]
      exact defined

/-- What an instance has in a slot, undefined where there is nothing. -/
def World.reading (w : World) (r : Ref) (key : StorageKey) : Value :=
  (w.slot? r key).getD .undefined

theorem World.reading_filled {v : Value} (found : w.slot? r key = some v) : w.reading r key = v := by
  unfold reading
  rw [found]
  rfl

theorem World.reading_empty (empty : ∀ v, w.slot? r key = some v → v.isUndefined = true) :
    w.reading r key = .undefined := by
  unfold reading
  cases found : w.slot? r key with
  | none => rfl
  | some v =>
    have undefined := empty v found
    cases v <;> first | rfl | cases undefined

theorem currentSlot_filled {v : Value} (found : w.slot? r key = some v)
    (defined : v.isUndefined = false) (make : Action Value) :
    (currentSlot r key make).run w = .ok v w := by
  unfold currentSlot
  rw [EStateM.run_bind, EStateM.run_get]
  simp only [found, defined]
  rfl

theorem currentSlot_empty (empty : ∀ v, w.slot? r key = some v → v.isUndefined = true)
    (make : Action Value) : (currentSlot r key make).run w = make.run w := by
  unfold currentSlot
  rw [EStateM.run_bind, EStateM.run_get]
  dsimp only
  split
  · rename_i v found
    rw [if_pos (empty v found)]
  · rfl

theorem currentSlot_run (w : World) (r : Ref) (key : StorageKey) (make : Action Value) :
    (currentSlot r key make).run w =
      if (w.reading r key).isUndefined then make.run w else .ok (w.reading r key) w := by
  rcases w.filled_or_empty r key with ⟨v, found, defined⟩ | empty
  · rw [currentSlot_filled found defined, World.reading_filled found, defined]
    rfl
  · rw [currentSlot_empty empty, World.reading_empty empty]
    rfl

end

section
variable {R : Region} (plain : R.Plain) (e : Engine)
include plain

def NextConfined (R : Region) (next : Value → Option Constructor → Action Outcome) : Prop :=
  ∀ current owner, R.within current → NativeOwner owner →
    Confined R R.withinOutcome (next current owner)

omit plain in
theorem DateField.invoke_confined (id : Nat) (field : DateField) {this : Value}
    (within : R.within this) {args : List Value} (given : ∀ v ∈ args, R.within v)
    {next : Value → Option Constructor → Action Outcome} (hnext : NextConfined R next) :
    Confined R R.within ((field.property id).kind.invoke e this args next) := by
  have reads (field : DateField) := (field.read_stays (R := R) this).confined
  have writes (field : DateField) (v : Value) := (field.write_stays v within).confined
  have custom : Confined R R.within
      ((PropertyKind.custom (.dateField field) (.dateField field)).invoke e this args next) := by
    refine .bind (reads field) fun current hc => ?_
    cases args with
    | nil => exact .pure hc
    | cons key rest =>
      refine .bind (hnext current none hc .none) fun outcome ho => ?_
      cases outcome with
      | read v => exact .pure ho
      | write v => exact .bind (writes field v) fun _ _ => .pure within
      | request => exact .bind (writes field key) fun _ _ => .pure within
      | done => exact .pure within
  cases field with
  | part _ | time => exact custom
  | weekday =>
    refine .bind (reads .weekday) fun current hc => ?_
    cases args with
    | nil => exact .pure hc
    | cons key rest =>
      refine .bind (hnext current none hc .none) fun outcome ho => ?_
      cases outcome with
      | read v => exact .pure ho
      | write _ | request => exact .bind (.report _ _) fun _ _ => .pure within
      | done => exact .pure within

def CallConfined (R : Region) (call : Property → Action Value) : Prop :=
  ∀ id field, Confined R R.within (call (DateField.property id field))

theorem applyMethod_confined {current : Value} (within : R.within current) (name : String)
    (assign : Bool) {args : List Value} (given : ∀ v ∈ args, R.within v)
    {owner : Option Constructor} (native : NativeOwner owner) {call : Property → Action Value}
    (hcall : CallConfined R call) :
    Confined R R.withinOutcome (applyMethod e current name assign args owner call) := by
  have finish {a : Action Value} (h : Confined R R.within a) :
      Confined R R.withinOutcome (a >>= fun result => pure (Outcome.of result assign)) :=
    .bind h fun _ hv => .pure (Region.withinOutcome_of hv assign)
  refine .get fun w _ => ?_
  dsimp only
  split
  · split
    · rename_i c
      cases c with
      | native t =>
        exact .bind (t.construct_stays given).confined fun _ hv => .pure hv
      | entity t => exact absurd rfl (native t)
    · exact .fail _
  · simp only [plain.ownMethod? w within, native.method? w]
    split
    · rename_i p found
      obtain ⟨id, field, rfl⟩ := dateBehavior_property?
        (native.findProperty? w (plain.isEntity within) found)
      exact finish (hcall id field)
    · split
      · rename_i f found
        exact finish (builtin_stays found current args within given).confined
      · split
        · rename_i f found
          exact finish (Utility.stays found (current :: args)
            (List.forall_mem_cons.mpr ⟨within, given⟩)).confined
        · exact finish (.fail _)

theorem applySteps_confined (op : Operator) {running : Value} (within : R.within running)
    {args : List Value} (given : ∀ v ∈ args, R.within v) :
    Confined R R.within (applySteps e op none running args) := by
  induction args generalizing running with
  | nil => exact .pure within
  | cons operand rest ih =>
    obtain ⟨first, others⟩ := List.forall_mem_cons.mp given
    have step : Confined R R.within (applyStep e op none running operand) := by
      refine .get fun w _ => ?_
      simp only [plain.ownMethod? w within]
      exact .pure (Region.within_apply op within first)
    exact .bind step fun _ hv => ih hv others

theorem applyOperator_confined {current : Value} (within : R.within current) (op : Operator)
    (assign : Bool) {args : List Value} (given : ∀ v ∈ args, R.within v)
    {owner : Option Constructor} (native : NativeOwner owner) :
    Confined R R.withinOutcome (applyOperator e current op assign args owner) := by
  refine .get fun w _ => ?_
  simp only [native.override? w]
  exact .bind (applySteps_confined plain e op within given) fun _ hv =>
    .pure (Region.withinOutcome_of hv assign)

theorem accessKey_confined {current : Value} (within : R.within current) (key : Value)
    {args : List Value} (given : ∀ v ∈ args, R.within v)
    {next : Value → Option Constructor → Action Outcome} (hnext : NextConfined R next) :
    Confined R R.withinOutcome (accessKey current key args next) := by
  refine .get fun w sealed => ?_
  have entry := sealed.getKey key within (plain.isEntity within)
  dsimp only
  split
  · exact .pure entry
  · rename_i last
    split
    · exact hnext _ none entry .none
    · exact .bind (setKey_stays within (plain.isEntity within) (given last (by simp))).confined
        fun _ _ => .pure trivial
  · split
    · exact .fail _
    · exact hnext _ none entry .none

theorem evaluateKey_confined {current : Value} (within : R.within current) (key : Value)
    {args : List Value} (given : ∀ v ∈ args, R.within v) {owner : Option Constructor}
    (native : NativeOwner owner) {next : Value → Option Constructor → Action Outcome}
    (hnext : NextConfined R next) {call : Property → Action Value} (hcall : CallConfined R call) :
    Confined R R.withinOutcome (evaluateKey current key args owner next call) := by
  have access : Confined R R.withinOutcome (if current.isKeyed then
      accessKey current key args next else pure .request) := by
    split
    · exact accessKey_confined plain within key given hnext
    · exact .pure trivial
  cases key with
  | str name =>
    refine .get fun w _ => ?_
    split
    · rename_i p found
      obtain ⟨id, field, rfl⟩ := dateBehavior_property?
        (native.findProperty? w (plain.isEntity within) found)
      refine .bind (hcall id field) fun result hr => ?_
      split
      · exact .pure trivial
      · exact .pure hr
    · exact access
  | number n => exact access
  | _ => exact .pure trivial

theorem evaluateWith_confined {current : Value} (within : R.within current) (key : Value)
    {args : List Value} (given : ∀ v ∈ args, R.within v) {owner : Option Constructor}
    (native : NativeOwner owner) {next : Value → Option Constructor → Action Outcome}
    (hnext : NextConfined R next) {call : Property → Action Value} (hcall : CallConfined R call) :
    Confined R R.withinOutcome (evaluateWith e current key args owner next call) := by
  have keyed := evaluateKey_confined plain within key given native hnext hcall
  unfold evaluateWith
  split
  · exact .pure trivial
  · cases key with
    | str text =>
      dsimp only
      split
      · exact applyMethod_confined plain e within _ _ given native hcall
      · split
        · exact .pure trivial
        · exact .fail _
      · split
        · exact keyed
        · exact applyOperator_confined plain e within _ _ given native
      · exact keyed
    | _ => exact keyed

/-- Evaluating an instruction within a region without entities stays there, however deep
its path goes. -/
theorem evaluate_confined {current : Value} (within : R.within current) (key : Value)
    {args : List Value} (given : ∀ v ∈ args, R.within v) {owner : Option Constructor}
    (native : NativeOwner owner) :
    Confined R R.withinOutcome (evaluate e current key args owner) := by
  induction args generalizing current key owner with
  | nil =>
    unfold evaluate
    have hnext : NextConfined R fun _ _ => pure .done := fun _ _ _ _ => .pure trivial
    exact evaluateWith_confined plain e within key given native hnext fun id field =>
      DateField.invoke_confined e id field within given hnext
  | cons first rest ih =>
    unfold evaluate
    have others := (List.forall_mem_cons.mp given).2
    have hnext : NextConfined R fun inner owner => evaluate e inner first rest owner :=
      fun inner owner within native => ih within first others native
    exact evaluateWith_confined plain e within key given native hnext fun id field =>
      DateField.invoke_confined e id field within given hnext

omit plain in
theorem currentSlot_kept {w : World} (sealed : R.Sealed w) {r : Ref} {key : StorageKey}
    (may : R.slot r key) {make : Action Value} (made : R.Kept R.within w (make.run w)) :
    R.Kept R.within w ((currentSlot r key make).run w) := by
  rcases w.filled_or_empty r key with ⟨v, found, defined⟩ | empty
  · rw [currentSlot_filled found defined]
    exact ⟨.refl w, sealed, sealed.slots r key v may found⟩
  · rw [currentSlot_empty empty]
    exact made

omit plain in
theorem readBasic_kept {w : World} (sealed : R.Sealed w) {r : Ref} {key : StorageKey}
    (may : R.slot r key) {default : Value} {policy : ClonePolicy}
    (made : R.Kept R.within w ((policy.apply default).run w)) :
    R.Kept R.within w ((readBasic r key default policy).run w) := by
  refine currentSlot_kept sealed may (made.next fun v hv => ?_)
  exact .bind (.setSlot may hv) fun _ _ => .pure hv

theorem place_confined {r : Ref} {key : StorageKey} (may : R.slot r key) {v : Value}
    (within : R.within v) : Confined R (fun _ => True) (place e r key v) := by
  rw [place_plain (plain.isEntity within)]
  exact .setSlot may within

theorem unwrapNested_confined {nested : Value} (within : R.within nested) :
    Confined R R.within (unwrapNested e nested) := by
  rw [unwrapNested_plain (plain.isEntity within)]
  exact .pure within

theorem readTyped_kept {w : World} (sealed : R.Sealed w) {r : Ref} {key : StorageKey}
    (may : R.slot r key) {t : NativeType} {defaults : List Value}
    (made : R.Kept R.within w ((t.construct defaults).run w)) :
    R.Kept R.within w ((readTyped e r key (.native t) defaults).run w) := by
  refine (currentSlot_kept sealed may (made.next fun v hv => ?_)).next
    fun v hv => unwrapNested_confined plain e hv
  exact .bind (place_confined plain e may hv) fun _ _ => .pure hv

omit plain in
theorem coerce_confined (t : NativeType) {v : Value} (within : R.within v) {args : List Value}
    (given : ∀ u ∈ args, R.within u) :
    Confined R R.within (coerce e (.native t) v args) := by
  refine .get fun w _ => ?_
  split
  · exact .pure within
  · exact (t.construct_stays given).confined

/-- Calls on a basic property whose slot may be written, when the copy of its default lies in
the region: they give back what is within it, or the owner. -/
theorem invoke_basic_kept {w : World} (sealed : R.Sealed w) {p : Property} {r : Ref}
    {key : StorageKey} (may : R.slot r key) {default : Value} {policy : ClonePolicy}
    (kind : p.kind = .basic key default policy)
    (made : R.Kept R.within w ((policy.apply default).run w)) {args : List Value}
    (given : ∀ v ∈ args, R.within v) :
    R.Kept (fun v => R.within v ∨ v = .entity r) w ((p.invoke e (.entity r) args).run w) := by
  have reads := readBasic_kept sealed may made
  unfold Property.invoke
  cases args with
  | nil =>
    simp only [kind, PropertyKind.invoke]
    exact reads.next fun v hv => .pure (.inl hv)
  | cons first rest =>
    obtain ⟨hfirst, others⟩ := List.forall_mem_cons.mp given
    simp only [kind, PropertyKind.invoke]
    refine reads.next fun current hc =>
      .bind (evaluate_confined plain e hc first others .none) fun outcome ho => ?_
    cases outcome with
    | read v => exact .pure (.inl ho)
    | write v => exact .bind (.setSlot may ho) fun _ _ => .pure (.inr rfl)
    | request => exact .bind (.setSlot may hfirst) fun _ _ => .pure (.inr rfl)
    | done => exact .pure (.inr rfl)

theorem invoke_typed_kept {w : World} (sealed : R.Sealed w) {p : Property} {r : Ref}
    {key : StorageKey} (may : R.slot r key) {t : NativeType} {defaults : List Value}
    (kind : p.kind = .typed key (.native t) defaults)
    (made : R.Kept R.within w ((t.construct defaults).run w)) {args : List Value}
    (given : ∀ v ∈ args, R.within v) :
    R.Kept (fun v => R.within v ∨ v = .entity r) w ((p.invoke e (.entity r) args).run w) := by
  have reads := readTyped_kept plain e sealed may made
  have replaces {v : Value} (hv : R.within v) {args : List Value} (given : ∀ u ∈ args, R.within u) :
      Confined R (fun v => R.within v ∨ v = .entity r)
        (coerce e (.native t) v args >>= fun u => place e r key u >>= fun _ =>
          pure (.entity r)) :=
    .bind (coerce_confined e t hv given) fun u hu =>
      .bind (place_confined plain e may hu) fun _ _ => .pure (.inr rfl)
  unfold Property.invoke
  cases args with
  | nil =>
    simp only [kind, PropertyKind.invoke]
    exact reads.next fun v hv => .pure (.inl hv)
  | cons first rest =>
    obtain ⟨hfirst, others⟩ := List.forall_mem_cons.mp given
    simp only [kind, PropertyKind.invoke]
    refine reads.next fun current hc =>
      .bind (evaluate_confined plain e hc first others (.native t)) fun outcome ho => ?_
    cases outcome with
    | read v => exact .pure (.inl ho)
    | write v => exact replaces ho (List.forall_mem_cons.mpr ⟨ho, fun _ h => nomatch h⟩)
    | request => exact replaces hfirst given
    | done => exact .pure (.inr rfl)

end

end Accessors
