import Accessors.Proofs.Lockstep

/-! When serializing changes nothing that can be observed. It fills slots that were empty with the
values that it read from them. Where every property on such a slot would find the same in it, a
world in which some slots have been filled so cannot be told from the world before: this relation
is kept by reading and by serializing on both sides, and serializing alone leads into it. -/

namespace Accessors

namespace World

/-- One slot of two worlds: with matching values in both; or empty in the first, and with a value in
the second that every property on the slot would have found in it. -/
inductive SlotAhead (w₀ : World) (D : Ref → Prop) (w w' : World) (s : Ref) (key : StorageKey) : Prop
  | same (values : Matches D w w' (w.reading s key) (w'.reading s key))
  | filled (empty : w.reading s key = .undefined) (defined : (w'.reading s key).isUndefined = false)
      (agreed : ∀ q ∈ (w₀.typeOf s).properties.values, q.storageKey? = some key →
        Ending.Alike (q.kind.make.run w₀) (.ok (w'.reading s key) w'))

structure Ahead (w₀ : World) (D : Ref → Prop) (w w' : World) : Prop where
  left : w₀.Since D w
  right : w₀.Since D w'
  slots : ∀ s, D s → ∀ key, SlotAhead w₀ D w w' s key

/-- What a property that serializing may read makes for an empty slot, every property on the slot
would find in it. -/
def Consistent (w : World) (D : Ref → Prop) : Prop :=
  ∀ s, D s → ∀ p ∈ (w.typeOf s).properties.values, w.MayRead s p →
    ∀ q ∈ (w.typeOf s).properties.values, ∀ key, p.storageKey? = some key →
      q.storageKey? = some key → w.reading s key = .undefined →
        ∀ v u, p.kind.make.run w = .ok v u → v.isUndefined = false →
          Ending.Alike (q.kind.make.run w) (.ok v u)

section
variable {w₀ w w' u u' : World} {D : Ref → Prop} {s : Ref} {key : StorageKey} {v : Value}

theorem Grows.reading (grows : w.Grows w') (s : Ref) (key : StorageKey) :
    w'.reading s key = w.reading s key := by
  unfold World.reading
  rw [grows.slots s key fun never => never]

theorem reading_setSlot (w : World) (r : Ref) (key : StorageKey) (v : Value) (s : Ref)
    (other : StorageKey) :
    (w.after (setSlot r key v)).reading s other =
      if r = s ∧ key = other ∧ (w.instance? s).isSome then v else w.reading s other := by
  unfold reading
  rw [slot?_setSlot]
  split <;> rfl

theorem Closed.since (closed : w.Closed D) : w.Since D w := ⟨.refl w, closed.slots, rfl⟩

theorem Since.instances (closed : w₀.Closed D) (since : w₀.Since D w) (s : Ref) (known : D s) :
    (w.typeId? s).isSome := by
  rw [since.fills.typeId]
  exact closed.instances s known

theorem Since.announce (since : w₀.Since D w) (report : Report) :
    w₀.Since D (w.announce report) where
  fills := since.fills.trans (.announce w report)
  slots s known key := (since.slots s known key).fills (.announce w report)
  strict := (Channel.deliver_strict _ _).trans since.strict

theorem Since.made (since : w₀.Since D w) (kind : PropertyKind) :
    w₀.Since D (w.after kind.make) where
  fills := since.fills.trans (.of_grows (kind.make_growing w))
  slots s known key := by
    rw [Grows.reading (kind.make_growing w)]
    exact (since.slots s known key).fills (.of_grows (kind.make_growing w))
  strict := by
    rw [kind.make_deaf.unheard w]
    exact since.strict

theorem Since.setSlot (since : w₀.Since D w) (grounded : w.Grounded D v) (s : Ref)
    (key : StorageKey) : w₀.Since D (w.after (setSlot s key v)) where
  fills := since.fills.trans (.setSlot w s key v)
  slots r known other := by
    rw [reading_setSlot]
    split
    · exact grounded.fills (.setSlot w s key v)
    · exact (since.slots r known other).fills (.setSlot w s key v)
  strict := since.strict

theorem SlotAhead.kept (h : SlotAhead w₀ D w w' s key) (left : w.Fills u) (right : w'.Fills u')
    (grounded : w'.Grounded D (w'.reading s key)) (same : u.reading s key = w.reading s key)
    (same' : u'.reading s key = w'.reading s key) : SlotAhead w₀ D u u' s key := by
  cases h with
  | same values =>
    refine .same ?_
    rw [same, same']
    exact values.fills left right
  | filled empty defined agreed =>
    refine .filled (same.trans empty) (same' ▸ defined) fun q mem keyed levels => ?_
    rw [same', ← agreed q mem keyed levels]
    exact congrArg Except.ok (grounded.shape right levels)

theorem Ahead.refl (since : w₀.Since D w) : Ahead w₀ D w w :=
  ⟨since, since, fun s known key => .same (.refl (since.slots s known key))⟩

theorem Ahead.next (ahead : Ahead w₀ D w w') (left : w₀.Since D u) (right : w₀.Since D u')
    (fills : w.Fills u) (fills' : w'.Fills u')
    (slots : ∀ s, D s → ∀ key, SlotAhead w₀ D u u' s key ∨
      u.reading s key = w.reading s key ∧ u'.reading s key = w'.reading s key) :
    Ahead w₀ D u u' where
  left := left
  right := right
  slots s known key := by
    rcases slots s known key with ahead | ⟨same, same'⟩
    · exact ahead
    · exact (ahead.slots s known key).kept fills fills' (ahead.right.slots s known key) same same'

theorem Ahead.announce (ahead : Ahead w₀ D w w') (report : Report) :
    Ahead w₀ D (w.announce report) (w'.announce report) :=
  ahead.next (ahead.left.announce report) (ahead.right.announce report) (.announce w report)
    (.announce w' report) fun _ _ _ => .inr ⟨rfl, rfl⟩

theorem Ahead.announce_right (ahead : Ahead w₀ D w w') (report : Report) :
    Ahead w₀ D w (w'.announce report) :=
  ahead.next ahead.left (ahead.right.announce report) (.refl w) (.announce w' report)
    fun _ _ _ => .inr ⟨rfl, rfl⟩

theorem Ahead.made_left (ahead : Ahead w₀ D w w') (kind : PropertyKind) :
    Ahead w₀ D (w.after kind.make) w' :=
  have grows := kind.make_growing w
  ahead.next (ahead.left.made kind) ahead.right (.of_grows grows) (.refl w')
    fun s _ key => .inr ⟨grows.reading s key, rfl⟩

theorem Ahead.made_right (ahead : Ahead w₀ D w w') (kind : PropertyKind) :
    Ahead w₀ D w (w'.after kind.make) :=
  have grows := kind.make_growing w'
  ahead.next ahead.left (ahead.right.made kind) (.refl w) (.of_grows grows)
    fun s _ key => .inr ⟨rfl, grows.reading s key⟩

theorem Since.reading_stored (closed : w₀.Closed D) (since : w₀.Since D w) (known : D s)
    (key : StorageKey) (v : Value) : (w.after (Accessors.setSlot s key v)).reading s key = v := by
  have typed := since.instances closed s known
  have there : (w.instance? s).isSome := by simpa [typeId?] using typed
  rw [reading_setSlot, if_pos ⟨rfl, rfl, there⟩]

theorem reading_elsewhere {s r : Ref} {key other : StorageKey} (w : World) (v : Value)
    (elsewhere : ¬ (s = r ∧ key = other)) :
    (w.after (Accessors.setSlot s key v)).reading r other = w.reading r other := by
  rw [reading_setSlot, if_neg fun here => elsewhere ⟨here.1, here.2.1⟩]

theorem Ahead.store_both (closed : w₀.Closed D) (ahead : Ahead w₀ D w w') (known : D s)
    (key : StorageKey) {v v' : Value} (same : Matches D w w' v v') :
    Ahead w₀ D (w.after (setSlot s key v)) (w'.after (setSlot s key v')) := by
  have fills := Fills.setSlot w s key v
  have fills' := Fills.setSlot w' s key v'
  refine ahead.next (ahead.left.setSlot same.left s key) (ahead.right.setSlot same.right s key)
    fills fills' fun r there other => ?_
  by_cases here : s = r ∧ key = other
  · obtain ⟨rfl, rfl⟩ := here
    refine .inl (.same ?_)
    rw [ahead.left.reading_stored closed known, ahead.right.reading_stored closed known]
    exact same.fills fills fills'
  · exact .inr ⟨reading_elsewhere w v here, reading_elsewhere w' v' here⟩

theorem Ahead.store_left (closed : w₀.Closed D) (ahead : Ahead w₀ D w w') (known : D s)
    (key : StorageKey) (same : Matches D w w' v (w'.reading s key)) :
    Ahead w₀ D (w.after (setSlot s key v)) w' := by
  have fills := Fills.setSlot w s key v
  refine ahead.next (ahead.left.setSlot same.left s key) ahead.right fills (.refl w')
    fun r there other => ?_
  by_cases here : s = r ∧ key = other
  · obtain ⟨rfl, rfl⟩ := here
    refine .inl (.same ?_)
    rw [ahead.left.reading_stored closed known]
    exact same.fills fills (.refl w')
  · exact .inr ⟨reading_elsewhere w v here, rfl⟩

theorem Ahead.store_right (closed : w₀.Closed D) (ahead : Ahead w₀ D w w') (known : D s)
    (key : StorageKey) (grounded : w'.Grounded D v) (empty : w.reading s key = .undefined)
    (agreed : v.isUndefined = false → ∀ q ∈ (w₀.typeOf s).properties.values,
      q.storageKey? = some key → Ending.Alike (q.kind.make.run w₀) (.ok v w')) :
    Ahead w₀ D w (w'.after (setSlot s key v)) := by
  have fills := Fills.setSlot w' s key v
  refine ahead.next ahead.left (ahead.right.setSlot grounded s key) (.refl w) fills
    fun r there other => ?_
  by_cases here : s = r ∧ key = other
  · obtain ⟨rfl, rfl⟩ := here
    have stored := ahead.right.reading_stored closed known key v
    cases defined : v.isUndefined with
    | true =>
      refine .inl (.same ?_)
      rw [stored, empty, Value.eq_undefined defined]
      exact ⟨.scalar rfl, .scalar rfl, fun _ => shape_scalar rfl _⟩
    | false =>
      refine .inl (.filled empty (by rw [stored]; exact defined) fun q mem keyed levels => ?_)
      rw [stored, ← agreed defined q mem keyed levels]
      exact congrArg Except.ok (grounded.shape fills levels)
  · exact .inr ⟨rfl, reading_elsewhere w' v here⟩

end

end World

section
variable {w₀ w w' : World} {D : Ref → Prop} {s : Ref}

theorem World.Since.made_grounded (closed : w₀.Closed D) (since : w₀.Since D w)
    {kind : PropertyKind} (ordinary : kind.Ordinary w₀ D) {v : Value} {u : World}
    (made : kind.make.run w = .ok v u) : u.Grounded D v :=
  (ordinary.fills since.fills).make_grounded (since.instances closed) made

theorem World.Ahead.make (closed : w₀.Closed D) (ahead : w₀.Ahead D w w') {kind : PropertyKind}
    (ordinary : kind.Ordinary w₀ D) :
    Ends (w₀.Ahead D) (World.Matches D) w w' (kind.make.run w) (kind.make.run w') := by
  have alike := (ordinary.make_alike ahead.left.fills).symm.trans
    (ordinary.make_alike ahead.right.fills)
  refine .of_alike alike (.of_grows (kind.make_growing w)) (.of_grows (kind.make_growing w'))
    ((ahead.made_left kind).made_right kind) (fun _ _ => ahead.left.made_grounded closed ordinary)
    fun _ _ => ahead.right.made_grounded closed ordinary

theorem World.Ahead.fill (closed : w₀.Closed D) (ahead : w₀.Ahead D w w') (known : D s)
    {p : Property} (mem : p ∈ (w₀.typeOf s).properties.values) {key : StorageKey}
    (keyed : p.storageKey? = some key) :
    Ends (w₀.Ahead D) (World.Matches D) w w' ((currentSlot s key (p.kind.fill s key)).run w)
      ((currentSlot s key (p.kind.fill s key)).run w') := by
  have ordinary := closed.properties s known p mem
  rw [currentSlot_run, currentSlot_run]
  cases ahead.slots s known key with
  | same values =>
    rw [values.isUndefined]
    split
    · refine (ahead.make closed ordinary).bind fun u u' v v' _ _ rel same => ?_
      have left := World.Fills.setSlot u s key v
      have right := World.Fills.setSlot u' s key v'
      exact .ok left right (rel.store_both closed known key same) (same.fills left right)
    · exact .ok (.refl w) (.refl w') ahead values
  | filled empty defined agreed =>
    obtain ⟨v, u, made, looks⟩ := ((ordinary.make_alike ahead.left.fills).symm.trans
      (agreed p mem keyed)).of_ok
    have after := ahead.made_left p.kind
    have grows := World.Fills.of_grows (p.kind.make_growing w)
    unfold World.after at after grows
    rw [made] at after grows
    have same : World.Matches D u w' v (w'.reading s key) :=
      { left := ahead.left.made_grounded closed ordinary made
        right := ahead.right.slots s known key
        shape := looks }
    have left := World.Fills.setSlot u s key v
    have stored : (p.kind.fill s key).run w = .ok v (u.after (setSlot s key v)) := by
      unfold PropertyKind.fill
      rw [EStateM.run_bind, made]
      rfl
    rw [empty, defined]
    show Ends _ _ _ _ ((p.kind.fill s key).run w) _
    rw [stored]
    exact .ok (grows.trans left) (.refl w') (after.store_left closed known key same)
      (same.fills left (.refl w'))

theorem World.Ahead.fetch (closed : w₀.Closed D) (ahead : w₀.Ahead D w w') (known : D s)
    {p : Property} (mem : p ∈ (w₀.typeOf s).properties.values) :
    Ends (w₀.Ahead D) (World.Matches D) w w' ((p.kind.fetch s).run w) ((p.kind.fetch s).run w') := by
  have ordinary := closed.properties s known p mem
  have fill {key : StorageKey} (keyed : p.storageKey? = some key) := ahead.fill closed known mem keyed
  obtain ⟨id, kind⟩ := p
  cases ordinary with
  | constant grounded => exact .pure ahead (.of_fills grounded ahead.left.fills ahead.right.fills)
  | readOnly key =>
    cases ahead.slots s known key with
    | same values => exact .ok (.refl w) (.refl w') ahead values
    | filled empty defined agreed =>
      -- The property itself would have found nothing in that slot.
      have nothing := World.isUndefined_of_shape (Except.ok.inj (agreed _ mem rfl 0))
      cases defined.symm.trans nothing
  | basic key accepted finite grounded => exact fill rfl
  | typed key t finite grounded => exact fill rfl

theorem World.Ahead.lockstep (closed : w₀.Closed D) :
    Lockstep w₀ D (fun _ _ => True) (w₀.Ahead D) where
  covers _ _ _ _ := trivial
  left _ _ ahead := ahead.left
  right _ _ ahead := ahead.right
  announce _ _ report ahead := ahead.announce report
  fetch _ _ _ _ ahead known mem _ := ahead.fetch closed known mem

theorem World.Consistent.agreed (consistent : w₀.Consistent D) (known : D s) {p : Property}
    (mem : p ∈ (w₀.typeOf s).properties.values) (reads : w₀.MayRead s p) {key : StorageKey}
    (keyed : p.storageKey? = some key) (empty : w₀.reading s key = .undefined) {v : Value}
    {u : World} (alike : Ending.Alike (p.kind.make.run w₀) (.ok v u)) (defined : v.isUndefined = false)
    (q : Property) (there : q ∈ (w₀.typeOf s).properties.values) (shared : q.storageKey? = some key) :
    Ending.Alike (q.kind.make.run w₀) (.ok v u) := by
  obtain ⟨v₀, u₀, made, looks⟩ := alike.of_ok
  have defined₀ : v₀.isUndefined = false := (World.isUndefined_of_shape (looks 0)).symm.trans defined
  exact (consistent s known p mem reads q there key keyed shared empty v₀ u₀ made defined₀).trans
    fun levels => congrArg Except.ok (looks levels)

/-- In a world ahead of the first one, a property that may be read fills its slot so that the world
stays ahead. -/
theorem World.Ahead.fill_ahead (closed : w₀.Closed D) (consistent : w₀.Consistent D)
    (ahead : w₀.Ahead D w₀ w) (known : D s) {p : Property}
    (mem : p ∈ (w₀.typeOf s).properties.values) (reads : w₀.MayRead s p) {key : StorageKey}
    (keyed : p.storageKey? = some key) :
    Ends (fun u u' => u = u' ∧ w₀.Ahead D w₀ u) (World.Matches D) w w
      ((currentSlot s key (p.kind.fill s key)).run w)
      ((currentSlot s key (p.kind.fill s key)).run w) := by
  have ordinary := closed.properties s known p mem
  rw [currentSlot_run]
  split
  · rename_i undefined
    have empty : w₀.reading s key = .undefined := by
      cases ahead.slots s known key with
      | same values => exact Value.eq_undefined (values.isUndefined.symm.trans undefined)
      | filled empty _ _ => exact empty
    have after := ahead.made_right p.kind
    have grows := World.Fills.of_grows (p.kind.make_growing w)
    have alike := ordinary.make_alike ahead.right.fills
    unfold World.after at after grows
    unfold PropertyKind.fill
    rw [EStateM.run_bind]
    cases made : p.kind.make.run w with
    | error stop u =>
      rw [made] at after grows
      exact .error grows grows ⟨rfl, after⟩
    | ok v u =>
      rw [made] at after grows alike
      have grounded := ahead.right.made_grounded closed ordinary made
      have agreed := consistent.agreed known mem reads keyed empty alike
      have stored := after.store_right closed known key grounded empty agreed
      have fills := World.Fills.setSlot u s key v
      exact .ok (grows.trans fills) (grows.trans fills) ⟨rfl, stored⟩ (.refl (grounded.fills fills))
  · exact .ok (.refl w) (.refl w) ⟨rfl, ahead⟩ (.refl (ahead.right.slots s known key))

theorem World.Ahead.lockstep_may_read (closed : w₀.Closed D) (consistent : w₀.Consistent D) :
    Lockstep w₀ D w₀.MayRead (fun w w' => w = w' ∧ w₀.Ahead D w₀ w) where
  covers _ _ _ reads := reads
  left w w' rel := rel.1 ▸ rel.2.right
  right w w' rel := rel.1 ▸ rel.2.right
  announce w w' report rel := by
    obtain ⟨rfl, ahead⟩ := rel
    exact ⟨rfl, ahead.announce_right report⟩
  fetch w w' s p rel known mem reads := by
    obtain ⟨rfl, ahead⟩ := rel
    have ordinary := closed.properties s known p mem
    have fill {key : StorageKey} (keyed : p.storageKey? = some key) :=
      ahead.fill_ahead closed consistent known mem reads keyed
    obtain ⟨id, kind⟩ := p
    cases ordinary with
    | constant grounded => exact .pure ⟨rfl, ahead⟩ (.refl (grounded.fills ahead.right.fills))
    | readOnly key =>
      exact .ok (.refl w) (.refl w) ⟨rfl, ahead⟩ (.refl (ahead.right.slots s known key))
    | basic key accepted finite grounded => exact fill rfl
    | typed key t finite grounded => exact fill rfl

theorem World.Since.lockstep (closed : w₀.Closed D) :
    Lockstep w₀ D (fun _ _ => True) (fun w w' => w = w' ∧ w₀.Since D w) where
  covers _ _ _ _ := trivial
  left w w' rel := rel.2
  right w w' rel := rel.1 ▸ rel.2
  announce w w' report rel := by
    obtain ⟨rfl, since⟩ := rel
    exact ⟨rfl, since.announce report⟩
  fetch w w' s p rel known mem _ := by
    obtain ⟨rfl, since⟩ := rel
    have both := (World.Ahead.refl since).fetch closed known mem
    generalize (p.kind.fetch s).run w = ending at both
    cases both with
    | ok left right rel same => exact .ok left left ⟨rfl, rel.left⟩ same
    | error left right rel => exact .error left left ⟨rfl, rel.left⟩
    | tooDeep => exact .tooDeep

end

def jsonOf (r : Ref) : Action Json :=
  withEngine fun e => instanceToJson e r

/-- A host went on the same way in two worlds: it read properties of instances of the set, and gave
their slots values from the first world. -/
inductive World.GoesOn (w : World) (D : Ref → Prop) (w₁ : World) : World → World → Prop
  | start : GoesOn w D w₁ w w₁
  | read {u u' : World} (before : GoesOn w D w₁ u u') {s : Ref} {p : Property} (known : D s)
      (mem : p ∈ (w.typeOf s).properties.values) (flat : Ending.Flat ((p.on s []).run u))
      (flat' : Ending.Flat ((p.on s []).run u')) :
      GoesOn w D w₁ (u.after (p.on s [])) (u'.after (p.on s []))
  | assign {u u' : World} (before : GoesOn w D w₁ u u') {s : Ref} (known : D s) (key : StorageKey)
      {v : Value} (grounded : w.Grounded D v) :
      GoesOn w D w₁ (u.after (setSlot s key v)) (u'.after (setSlot s key v))

section
variable {w₀ w w' : World} {D : Ref → Prop} {s : Ref} {p : Property}

theorem World.Since.read_deeper (closed : w₀.Closed D) (since : w₀.Since D w) (known : D s)
    (mem : p ∈ (w₀.typeOf s).properties.values) {depth : Nat} (deeper : w.depth ≤ depth) :
    Ends (fun u u' => u = u' ∧ w₀.Since D u) (World.Matches D) w w ((p.on s []).run w)
      ((p.invoke (engine depth) (.entity s) []).run w) :=
  have lock := World.Since.lockstep closed
  lock.invoke (lock.engine_paired closed deeper) closed ⟨rfl, since⟩ known mem trivial

theorem World.Ahead.read (closed : w₀.Closed D) (ahead : w₀.Ahead D w w') (known : D s)
    (mem : p ∈ (w₀.typeOf s).properties.values) (flat : Ending.Flat ((p.on s []).run w))
    (flat' : Ending.Flat ((p.on s []).run w')) :
    Ending.Alike ((p.on s []).run w) ((p.on s []).run w') ∧
      w₀.Ahead D (w.after (p.on s [])) (w'.after (p.on s [])) := by
  -- The worlds need not have the same depth: both reads are compared by an engine for both.
  let depth := max w.depth w'.depth
  have first := ahead.left.read_deeper closed known mem (Nat.le_max_left w.depth w'.depth)
  have second := ahead.right.read_deeper closed known mem (Nat.le_max_right w.depth w'.depth)
  have lock := World.Ahead.lockstep closed
  have across := lock.invoke (lock.engine_paired closed (Nat.le_refl depth)) closed ahead known mem
    trivial
  have deep := first.flat_right flat
  refine ⟨(first.alike flat).trans ((across.alike deep).trans (second.alike flat').symm), ?_⟩
  rw [(first.after flat).1, (second.after flat').1]
  exact across.after deep

end

/-- Serializing is pure. Where what serializing may put into an empty slot is what every property
on the slot would find in it: a second time it gives the same answer, and however a host goes on,
properties read the same as if it had not been done. -/
theorem serializing_unobserved {w : World} {D : Ref → Prop} (closed : w.Closed D)
    (consistent : w.Consistent D) {r : Ref} (known : D r) (flat : Ending.Flat ((jsonOf r).run w)) :
    let w₁ := w.after (jsonOf r)
    Ending.answer ((jsonOf r).run w₁) = Ending.answer ((jsonOf r).run w) ∧
      ∀ u u', w.GoesOn D w₁ u u' → ∀ s, D s → ∀ p ∈ (w.typeOf s).properties.values,
        Ending.Flat ((p.on s []).run u) → Ending.Flat ((p.on s []).run u') →
          Ending.Alike ((p.on s []).run u) ((p.on s []).run u') := by
  intro w₁
  have serialized : w.Ahead D w w₁ := by
    have lock := World.Ahead.lockstep_may_read closed consistent
    have alone := lock.instanceToJson (lock.engine_paired closed (Nat.le_refl w.depth)) closed
      ⟨rfl, .refl closed.since⟩ known
    have after : w₁ = w.after (instanceToJson (engine w.depth) r) := (alone.after flat).1
    rw [after]
    exact after ▸ (alone.after flat).2
  have ahead {u u' : World} (goesOn : w.GoesOn D w₁ u u') : w.Ahead D u u' := by
    induction goesOn with
    | start => exact serialized
    | read _ known mem flat flat' ih => exact (ih.read closed known mem flat flat').2
    | assign _ known key grounded ih =>
      exact ih.store_both closed known key (.of_fills grounded ih.left.fills ih.right.fills)
  have lock := World.Ahead.lockstep closed
  have deeper : w.depth ≤ w₁.depth := Nat.add_le_add_left serialized.right.fills.size callDepth
  have again := lock.instanceToJson (lock.engine_paired closed deeper) closed serialized known
  exact ⟨again.answer flat, fun u u' goesOn s there p mem before after =>
    ((ahead goesOn).read closed there mem before after).1⟩

theorem World.consistent_of_scalars {w : World} {D : Ref → Prop} (scalar : StorageKey → Value)
    (made : ∀ s, D s → ∀ p ∈ (w.typeOf s).properties.values, ∀ key, p.storageKey? = some key →
      p.kind.make.run w = .ok (scalar key) w) : w.Consistent D := by
  intro s known p mem _ q mem' key keyed shared _ v u ran _ levels
  cases (made s known p mem key keyed).symm.trans ran
  rw [made s known q mem' key shared]

def freshInstance (properties : List (String × Property)) : World :=
  { World.initial with
    types := #[{ EntityType.bare "T" with
      properties := Table.ofList properties
      serializer := some .basic }]
    objects := #[.entity ⟨0, .empty, []⟩] }

theorem freshInstance_closed {properties : List (String × Property)}
    (ordinary : ∀ entry ∈ properties,
      entry.2.kind.Ordinary (freshInstance properties) fun s => s = 0) :
    (freshInstance properties).Closed fun s => s = 0 where
  instances := by
    rintro s rfl
    rfl
  properties := by
    rintro s rfl p mem
    obtain ⟨entry, listed, rfl⟩ := Table.mem_values_ofList mem
    exact ordinary entry listed
  slots := by
    rintro s rfl key
    refine .scalar ?_
    cases key <;> rfl

/-- A basic property and a typed one with the same text as default share a variable. -/
theorem agreeing_defaults_unobserved :
    let c : Property := ⟨9, .constant .null⟩
    let o : Property := ⟨10, .readOnly (.slot (.named "_y"))⟩
    let p : Property := ⟨11, .basic (.named "_x") (.str "a") .identity⟩
    let q : Property := ⟨12, .typed (.named "_x") (.native .string) [.str "a"]⟩
    let w := freshInstance [("c", c), ("o", o), ("p", p), ("q", q)]
    let w₁ := w.after (jsonOf 0)
    Ending.answer ((jsonOf 0).run w₁) = Ending.answer ((jsonOf 0).run w) ∧
      Ending.Alike ((q.on 0 []).run w) ((q.on 0 []).run w₁) := by
  intro c o p q w w₁
  have closed : w.Closed fun s => s = 0 := by
    refine freshInstance_closed fun entry mem => ?_
    simp only [List.mem_cons, List.not_mem_nil, or_false] at mem
    rcases mem with rfl | rfl | rfl | rfl
    · exact .constant (.scalar rfl)
    · exact .readOnly _
    · exact .basic _ rfl ⟨0, .scalar rfl⟩ (.scalar rfl)
    · exact .typed _ _ (by simpa using ⟨0, .scalar rfl⟩) (by simpa using .scalar rfl)
  have consistent : w.Consistent fun s => s = 0 := by
    refine World.consistent_of_scalars
      (fun key => if key = .named "_x" then .str "a" else .undefined) ?_
    rintro s rfl r mem key keyed
    obtain ⟨entry, listed, rfl⟩ := Table.mem_values_ofList mem
    simp only [List.mem_cons, List.not_mem_nil, or_false] at listed
    rcases listed with rfl | rfl | rfl | rfl <;> cases keyed <;> rfl
  have flat : Ending.Flat ((jsonOf 0).run w) := fun u never => by cases never
  have pure := serializing_unobserved closed consistent rfl flat
  have values : (w.typeOf 0).properties.values = [c, o, p, q] := rfl
  have listed : q ∈ (w.typeOf 0).properties.values := by simp [values]
  exact ⟨pure.1, pure.2 _ _ .start 0 rfl q listed (fun u never => by cases never)
    fun u never => by cases never⟩

/-- The first time the read-only property finds nothing, the second time what the basic one has put
into their slot; so it does when it is read on its own. -/
theorem serializing_fills_shared_slot :
    let x : Property := ⟨9, .readOnly (.slot (.named "_x"))⟩
    let y : Property := ⟨10, .basic (.named "_x") (.str "5") .identity⟩
    let w := freshInstance [("x", x), ("y", y)]
    let w₁ := w.after (jsonOf 0)
    w.Closed (fun s => s = 0) ∧
      Ending.answer ((jsonOf 0).run w) = .ok (.object [("y", .str "5")]) ∧
      Ending.answer ((jsonOf 0).run w₁) = .ok (.object [("x", .str "5"), ("y", .str "5")]) ∧
      Ending.answer ((x.on 0 []).run w) = .ok .undefined ∧
      Ending.answer ((x.on 0 []).run w₁) = .ok (.str "5") := by
  intro x y w w₁
  refine ⟨freshInstance_closed fun entry mem => ?_, rfl, rfl, rfl, rfl⟩
  simp only [List.mem_cons, List.not_mem_nil, or_false] at mem
  rcases mem with rfl | rfl
  · exact .readOnly _
  · exact .basic _ rfl ⟨0, .scalar rfl⟩ (.scalar rfl)

end Accessors
