import Accessors.Proofs.Making

/-! Two runs side by side. Reading a property and serializing an instance do the same in both
worlds as long as the worlds stay related, however deep entities and collections nest. The relation
is a parameter: all that it has to allow for is a property finding or making the value of its slot.
What serializing does with such values is followed here once. -/

namespace Accessors

namespace PropertyKind

def fill (kind : PropertyKind) (s : Ref) (key : StorageKey) : Action Value := do
  let v ← kind.make
  setSlot s key v
  pure v

def fetch (kind : PropertyKind) (s : Ref) : Action Value :=
  match kind with
  | constant v => pure v
  | readOnly (.slot key) => return ((← get).slot? s key).getD .undefined
  | basic key _ _ | typed key _ _ => currentSlot s key (kind.fill s key)
  | _ => pure .undefined

end PropertyKind

def Serializer.Selects (serializer : Serializer) (type : EntityType) (p : Property) : Prop :=
  match serializer with
  | basic => p ∈ type.properties.values
  | exclusive keys => ∃ name, (name, p) ∈ type.properties.entries ∧ name ∉ keys
  | map entries => ∃ key source, (key, some source) ∈ entries.entries ∧ type.property? source = some p
  | inclusive keys => ∃ key ∈ keys, type.property? key = some p

namespace World

def MayRead (w : World) (s : Ref) (p : Property) : Prop :=
  p.mode.isReadable = true ∧ ((w.typeOf s).property? "value" = some p ∨
    ∃ serializer, (w.typeOf s).serializer = some serializer ∧ serializer.Selects (w.typeOf s) p)

/-- A set of instances whose properties run no functions of a user, and which lead to no others,
neither through slots nor through constants and defaults. -/
structure Closed (w : World) (D : Ref → Prop) : Prop where
  instances : ∀ s, D s → (w.typeId? s).isSome
  properties : ∀ s, D s → ∀ p ∈ (w.typeOf s).properties.values, p.kind.Ordinary w D
  slots : ∀ s, D s → ∀ key, w.Grounded D (w.reading s key)

structure Since (w₀ : World) (D : Ref → Prop) (w : World) : Prop where
  fills : w₀.Fills w
  slots : ∀ s, D s → ∀ key, w.Grounded D (w.reading s key)
  strict : w.channel.strict = w₀.channel.strict

end World

/-- How two runs end: with values or with the same error, in related worlds; or the first run
nests too deep. -/
inductive Ends {α : Type} (Rel : World → World → Prop) (Q : World → World → α → α → Prop)
    (w w' : World) : Ending α → Ending α → Prop
  | ok {v v' : α} {u u' : World} (left : w.Fills u) (right : w'.Fills u') (rel : Rel u u')
      (values : Q u u' v v') : Ends Rel Q w w' (.ok v u) (.ok v' u')
  | error {stop : Stop} {u u' : World} (left : w.Fills u) (right : w'.Fills u') (rel : Rel u u') :
      Ends Rel Q w w' (.error stop u) (.error stop u')
  | tooDeep {u : World} {ending : Ending α} : Ends Rel Q w w' (.error .tooDeep u) ending

namespace Ending
variable {α : Type}

def Flat (e : Ending α) : Prop :=
  ∀ w, e ≠ .error .tooDeep w

def answer : Ending α → Except Stop α
  | .ok v _ => .ok v
  | .error stop _ => .error stop

end Ending

/-- What a relation between worlds has to keep: properties of the set that may be read find or make
matching values. -/
structure Lockstep (w₀ : World) (D : Ref → Prop) (Reads : Ref → Property → Prop)
    (Rel : World → World → Prop) : Prop where
  covers : ∀ s p, D s → w₀.MayRead s p → Reads s p
  left : ∀ w w', Rel w w' → w₀.Since D w
  right : ∀ w w', Rel w w' → w₀.Since D w'
  announce : ∀ w w' report, Rel w w' → Rel (w.announce report) (w'.announce report)
  fetch : ∀ w w' s p, Rel w w' → D s → p ∈ (w₀.typeOf s).properties.values → Reads s p →
    Ends Rel (World.Matches D) w w' ((p.kind.fetch s).run w) ((p.kind.fetch s).run w')

namespace Ends
variable {α β : Type} {Rel : World → World → Prop} {P : World → World → α → α → Prop}
  {Q : World → World → β → β → Prop} {w w' : World}

theorem pure {v v' : α} (rel : Rel w w') (values : P w w' v v') :
    Ends Rel P w w' ((Pure.pure v : Action α).run w) ((Pure.pure v' : Action α).run w') :=
  .ok (.refl w) (.refl w') rel values

theorem earlier {u u' : World} (left : w.Fills u) (right : w'.Fills u') {e e' : Ending α}
    (h : Ends Rel P u u' e e') : Ends Rel P w w' e e' := by
  cases h with
  | ok l r rel values => exact .ok (left.trans l) (right.trans r) rel values
  | error l r rel => exact .error (left.trans l) (right.trans r) rel
  | tooDeep => exact .tooDeep

theorem bind {a a' : Action α} {k k' : α → Action β} (first : Ends Rel P w w' (a.run w) (a'.run w'))
    (next : ∀ u u' v v', w.Fills u → w'.Fills u' → Rel u u' → P u u' v v' →
      Ends Rel Q u u' ((k v).run u) ((k' v').run u')) :
    Ends Rel Q w w' ((a >>= k).run w) ((a' >>= k').run w') := by
  rw [EStateM.run_bind, EStateM.run_bind]
  generalize a.run w = e at first
  generalize a'.run w' = e' at first
  cases first with
  | ok left right rel values => exact (next _ _ _ _ left right rel values).earlier left right
  | error left right rel => exact .error left right rel
  | tooDeep => exact .tooDeep

theorem of_alike {D : Ref → Prop} {a a' : Action Value}
    (alike : Ending.Alike (a.run w) (a'.run w')) (left : w.Fills (w.after a))
    (right : w'.Fills (w'.after a')) (rel : Rel (w.after a) (w'.after a'))
    (grounded : ∀ v u, a.run w = .ok v u → u.Grounded D v)
    (grounded' : ∀ v u, a'.run w' = .ok v u → u.Grounded D v) :
    Ends Rel (World.Matches D) w w' (a.run w) (a'.run w') := by
  unfold World.after at left right rel
  generalize a.run w = e at *
  generalize a'.run w' = e' at *
  cases e' with
  | ok v' u' =>
    obtain ⟨v, u, rfl, looks⟩ := alike.of_ok
    exact .ok left right rel ⟨grounded v u rfl, grounded' v' u' rfl, looks⟩
  | error stop u' =>
    cases e with
    | ok v u => cases alike 0
    | error stop' u =>
      cases alike 0
      exact .error left right rel

variable {a a' : Action α} (flat : Ending.Flat (a.run w))
include flat

theorem flat_right (h : Ends Rel P w w' (a.run w) (a'.run w')) : Ending.Flat (a'.run w') := by
  generalize a.run w = e at h flat
  generalize a'.run w' = e' at h
  cases h with
  | ok => exact fun _ never => nomatch never
  | error => exact fun u eq => flat _ (by cases eq; rfl)
  | tooDeep => exact (flat _ rfl).elim

theorem after (h : Ends Rel P w w' (a.run w) (a'.run w')) : Rel (w.after a) (w'.after a') := by
  unfold World.after
  generalize a.run w = e at h flat
  generalize a'.run w' = e' at h
  cases h with
  | ok _ _ rel => exact rel
  | error _ _ rel => exact rel
  | tooDeep => exact (flat _ rfl).elim

theorem answer (h : Ends Rel (fun _ _ v v' => v' = v) w w' (a.run w) (a'.run w')) :
    Ending.answer (a'.run w') = Ending.answer (a.run w) := by
  generalize a.run w = e at h flat
  generalize a'.run w' = e' at h
  cases h with
  | ok _ _ _ same => exact congrArg Except.ok same
  | error => rfl
  | tooDeep => exact (flat _ rfl).elim

omit flat in
theorem alike {D : Ref → Prop} {a a' : Action Value} (flat : Ending.Flat (a.run w))
    (h : Ends Rel (World.Matches D) w w' (a.run w) (a'.run w')) :
    Ending.Alike (a.run w) (a'.run w') := by
  generalize a.run w = e at h flat
  generalize a'.run w' = e' at h
  cases h with
  | ok _ _ _ same => exact fun levels => congrArg Except.ok (same.shape levels)
  | error => exact fun _ => rfl
  | tooDeep => exact (flat _ rfl).elim

end Ends

structure Engine.Paired (w₀ : World) (D : Ref → Prop) (Reads : Ref → Property → Prop)
    (Rel : World → World → Prop) (e e' : Engine) : Prop where
  readNested : ∀ w w' s p, Rel w w' → D s → p ∈ (w₀.typeOf s).properties.values → Reads s p →
    Ends Rel (World.Matches D) w w' ((e.readNested p (.entity s)).run w)
      ((e'.readNested p (.entity s)).run w')
  toJson : ∀ w w' v v', Rel w w' → World.Matches D w w' v v' →
    Ends Rel (fun _ _ json json' => json' = json) w w' ((e.toJson v).run w) ((e'.toJson v').run w')

theorem World.Fills.typeOf {w w' : World} (fills : w.Fills w') (r : Ref) :
    w'.typeOf r = w.typeOf r :=
  Region.Evolves.typeOf fills r

theorem readTyped_run (e : Engine) (s : Ref) (key : StorageKey) (t : NativeType)
    (defaults : List Value) (w : World) :
    (readTyped e s key (.native t) defaults).run w =
      ((PropertyKind.typed key (.native t) defaults).fetch s >>= unwrapNested e).run w := by
  unfold readTyped PropertyKind.fetch
  rcases w.filled_or_empty s key with ⟨v, found, defined⟩ | empty
  · rw [EStateM.run_bind, EStateM.run_bind, currentSlot_filled found defined,
      currentSlot_filled found defined]
  · rw [EStateM.run_bind, EStateM.run_bind, currentSlot_empty empty, currentSlot_empty empty]
    unfold Constructor.construct PropertyKind.fill PropertyKind.make
    rw [EStateM.run_bind, EStateM.run_bind]
    cases ending : (t.construct defaults).run w with
    | error stop w₁ => rfl
    | ok v w₁ =>
      dsimp only
      rw [place_plain (NativeType.construct_isEntity ending)]

namespace Engine.Paired
variable {w₀ : World} {D : Ref → Prop} {Reads : Ref → Property → Prop}
  {Rel : World → World → Prop} {e e' : Engine} (engines : Paired w₀ D Reads Rel e e')
include engines

theorem itemsToJson {w w' : World} (rel : Rel w w') {items items' : List Value}
    (same : List.Forall₂ (World.Matches D w w') items items') :
    Ends Rel (fun _ _ jsons jsons' => jsons' = jsons) w w' ((itemsToJson e items).run w)
      ((Accessors.itemsToJson e' items').run w') := by
  induction items generalizing w w' items' with
  | nil =>
    cases same
    exact .pure rel rfl
  | cons item rest ih =>
    cases same with
    | cons first others =>
    refine (engines.toJson w w' item _ rel first).bind fun u u' json json' left right rel same => ?_
    have others := others.imp fun _ _ both => both.fills left right
    refine (ih rel others).bind fun x x' jsons jsons' _ _ rel equal => ?_
    subst same equal
    exact .pure rel rfl

theorem fieldsToJson {w w' : World} (rel : Rel w w') {fields fields' : List (String × Value)}
    (same : World.EntriesMatch D w w' fields fields') :
    Ends Rel (fun _ _ members members' => members' = members) w w'
      ((fieldsToJson e fields).run w) ((Accessors.fieldsToJson e' fields').run w') := by
  induction fields generalizing w w' fields' with
  | nil =>
    cases same
    exact .pure rel rfl
  | cons field rest ih =>
    cases same with
    | @cons _ field' _ _ first others =>
    obtain ⟨key, value⟩ := field
    obtain ⟨key', value'⟩ := field'
    obtain ⟨rfl, first⟩ : key' = key ∧ World.Matches D w w' value value' := first
    refine (engines.toJson w w' value value' rel first).bind
      fun u u' json json' left right rel same => ?_
    have others := ih rel (World.EntriesMatch.fills others left right)
    subst same
    cases json' with
    | none => exact others
    | some json =>
      refine others.bind fun x x' members members' _ _ rel equal => ?_
      subst equal
      exact .pure rel rfl

end Engine.Paired

section
variable {w₀ : World} {D : Ref → Prop} {Reads : Ref → Property → Prop}
  {Rel : World → World → Prop} (lock : Lockstep w₀ D Reads Rel)
include lock

theorem Lockstep.report {w w' : World} (rel : Rel w w') (kind : ReportKind) (text : String) :
    Ends Rel (fun _ _ _ _ => True) w w' ((report kind text).run w) ((report kind text).run w') := by
  have announced := lock.announce w w' ⟨kind, text⟩ rel
  have strict : (w'.announce ⟨kind, text⟩).channel.strict = (w.announce ⟨kind, text⟩).channel.strict :=
    (lock.right _ _ announced).strict.trans (lock.left _ _ announced).strict.symm
  show Ends Rel _ w w' (EStateM.run (if (w.announce ⟨kind, text⟩).channel.strict then _ else _) _)
    (EStateM.run (if (w'.announce ⟨kind, text⟩).channel.strict then _ else _) _)
  rw [strict]
  split
  · exact .error (.announce w _) (.announce w' _) announced
  · exact .ok (.announce w _) (.announce w' _) announced trivial

variable {e e' : Engine} (engines : Engine.Paired w₀ D Reads Rel e e')
include engines

theorem Lockstep.unwrapNested {w w' : World} {v v' : Value} (rel : Rel w w')
    (same : World.Matches D w w' v v') :
    Ends Rel (World.Matches D) w w' ((unwrapNested e v).run w) ((unwrapNested e' v').run w') := by
  cases nested : v.isEntity with
  | false =>
    rw [unwrapNested_plain nested, unwrapNested_plain (same.isEntity.trans nested)]
    exact .pure rel same
  | true =>
    obtain ⟨r, rfl⟩ : ∃ r, v = .entity r := by
      cases v <;> first | exact ⟨_, rfl⟩ | cases nested
    cases same.of_entity
    have known : D r := same.left.among r (.self _)
    unfold Accessors.unwrapNested
    dsimp only
    rw [EStateM.run_bind, EStateM.run_get, EStateM.run_bind, EStateM.run_get]
    dsimp only
    rw [(lock.left _ _ rel).fills.typeOf, (lock.right _ _ rel).fills.typeOf]
    split
    · rename_i p found
      split
      · rename_i readable
        have mem := Table.mem_values_of_get? found
        exact engines.readNested w w' r p rel known mem
          (lock.covers r p known ⟨readable, .inl found⟩)
      · exact .pure rel same
    · exact .pure rel same

variable (closed : w₀.Closed D)
include closed

theorem Lockstep.invoke {w w' : World} {s : Ref} {p : Property} (rel : Rel w w') (known : D s)
    (mem : p ∈ (w₀.typeOf s).properties.values) (reads : Reads s p) :
    Ends Rel (World.Matches D) w w' ((p.invoke e (.entity s) []).run w)
      ((p.invoke e' (.entity s) []).run w') := by
  have fetched := lock.fetch w w' s p rel known mem reads
  have ordinary := closed.properties s known p mem
  obtain ⟨id, kind⟩ := p
  cases ordinary with
  | constant grounded => exact fetched
  | readOnly key => exact fetched
  | basic key accepted finite grounded =>
    rw [Property.read_basic e rfl, Property.read_basic e' rfl]
    exact fetched
  | typed key t finite grounded =>
    rw [Property.read_typed e rfl, Property.read_typed e' rfl, readTyped_run, readTyped_run]
    exact fetched.bind fun u u' v v' _ _ rel same =>
      lock.unwrapNested engines rel same

theorem Lockstep.addMember {w w' : World} {s : Ref} {p : Property} (rel : Rel w w') (known : D s)
    (mem : p ∈ (w₀.typeOf s).properties.values) (reads : Reads s p) (output : Table Json)
    (key : String) :
    Ends Rel (fun _ _ table table' => table' = table) w w'
      ((addMember e (.entity s) output key p).run w)
      ((addMember e' (.entity s) output key p).run w') := by
  refine (lock.invoke engines closed rel known mem reads).bind fun u u' v v' _ _ rel same => ?_
  refine (engines.toJson u u' v v' rel same).bind fun x x' json json' _ _ rel same => ?_
  subst same
  cases json' <;> exact .pure rel rfl

theorem Lockstep.addReadable {w w' : World} {s : Ref} (rel : Rel w w') (known : D s)
    (excluded : List String) (output : Table Json) {entries : List (String × Property)}
    (selected : ∀ entry ∈ entries, entry.2.mode.isReadable = true → entry.1 ∉ excluded →
      entry.2 ∈ (w₀.typeOf s).properties.values ∧ Reads s entry.2) :
    Ends Rel (fun _ _ table table' => table' = table) w w'
      ((addReadable e (.entity s) excluded output entries).run w)
      ((addReadable e' (.entity s) excluded output entries).run w') := by
  induction entries generalizing output w w' with
  | nil => exact .pure rel rfl
  | cons entry rest ih =>
    obtain ⟨name, p⟩ := entry
    obtain ⟨here, others⟩ := List.forall_mem_cons.mp selected
    unfold Accessors.addReadable
    split
    · rename_i shown
      obtain ⟨readable, included⟩ := Bool.and_eq_true_iff.mp shown
      obtain ⟨mem, reads⟩ := here readable (by simpa using included)
      refine (lock.addMember engines closed rel known mem reads output name).bind
        fun u u' table table' _ _ rel same => ?_
      subst same
      exact ih rel _ others
    · exact ih rel output others

theorem Lockstep.addEntries {w w' : World} {s : Ref} (rel : Rel w w') (known : D s)
    (output : Table Json) {entries : List (String × Option String)}
    (selected : ∀ entry ∈ entries, ∀ p, entry.2.bind (w₀.typeOf s).readable? = some p →
      p ∈ (w₀.typeOf s).properties.values ∧ Reads s p) :
    Ends Rel (fun _ _ table table' => table' = table) w w'
      ((addEntries e (.entity s) (w₀.typeOf s) output entries).run w)
      ((addEntries e' (.entity s) (w₀.typeOf s) output entries).run w') := by
  induction entries generalizing output w w' with
  | nil => exact .pure rel rfl
  | cons entry rest ih =>
    obtain ⟨key, source⟩ := entry
    obtain ⟨here, others⟩ := List.forall_mem_cons.mp selected
    unfold Accessors.addEntries
    split
    · rename_i p found
      obtain ⟨mem, reads⟩ := here p found
      refine (lock.addMember engines closed rel known mem reads output key).bind
        fun u u' table table' _ _ rel same => ?_
      subst same
      exact ih rel _ others
    · exact (lock.report rel _ _).bind fun u u' _ _ _ _ rel _ => ih rel output others

theorem Lockstep.serialize {w w' : World} {s : Ref} (rel : Rel w w') (known : D s)
    {serializer : Serializer} (declared : (w₀.typeOf s).serializer = some serializer) :
    Ends Rel (fun _ _ table table' => table' = table) w w'
      ((serializer.serialize e (.entity s) (w₀.typeOf s)).run w)
      ((serializer.serialize e' (.entity s) (w₀.typeOf s)).run w') := by
  have reads {p : Property} (readable : p.mode.isReadable = true)
      (selects : serializer.Selects (w₀.typeOf s) p) : Reads s p :=
    lock.covers s p known ⟨readable, .inr ⟨serializer, declared, selects⟩⟩
  have value {entry : String × Property} (mem : entry ∈ (w₀.typeOf s).properties.entries) :
      entry.2 ∈ (w₀.typeOf s).properties.values := List.mem_map_of_mem mem
  cases serializer with
  | basic =>
    exact lock.addReadable engines closed rel known [] .empty fun entry mem readable _ =>
      ⟨value mem, reads readable (value mem)⟩
  | exclusive keys =>
    exact lock.addReadable engines closed rel known keys .empty fun entry mem readable included =>
      ⟨value mem, reads readable ⟨entry.1, mem, included⟩⟩
  | map entries =>
    refine lock.addEntries engines closed rel known .empty fun entry mem p found => ?_
    obtain ⟨source, given, found⟩ := Option.bind_eq_some_iff.mp found
    obtain ⟨found, readable⟩ := Option.filter_eq_some_iff.mp found
    have here : (entry.1, some source) ∈ entries.entries := given ▸ mem
    exact ⟨Table.mem_values_of_get? found, reads readable ⟨entry.1, source, here, found⟩⟩
  | inclusive keys =>
    refine lock.addEntries engines closed rel known .empty fun entry mem p found => ?_
    obtain ⟨key, listed, rfl⟩ := List.mem_map.mp mem
    obtain ⟨found, readable⟩ := Option.filter_eq_some_iff.mp found
    exact ⟨Table.mem_values_of_get? found, reads readable ⟨key, listed, found⟩⟩

theorem Lockstep.valueToJson {w w' : World} (rel : Rel w w') {v v' : Value}
    (same : World.Matches D w w' v v') :
    Ends Rel (fun _ _ json json' => json' = json) w w' ((valueToJson e v).run w)
      ((valueToJson e' v').run w') := by
  unfold Accessors.valueToJson
  rw [EStateM.run_bind, EStateM.run_get, EStateM.run_bind, EStateM.run_get]
  cases v with
  | seq r =>
    obtain ⟨r', rfl, items⟩ := same.of_seq
    refine (engines.itemsToJson rel items).bind fun u u' jsons jsons' _ _ rel equal => ?_
    subst equal
    exact .pure rel rfl
  | record r =>
    obtain ⟨r', rfl, entries⟩ := same.of_record
    refine (engines.fieldsToJson rel entries).bind fun u u' members members' _ _ rel equal => ?_
    subst equal
    exact .pure rel rfl
  | date r =>
    obtain ⟨r', rfl, moment⟩ := same.of_date
    exact .pure rel (by rw [moment])
  | entity r =>
    cases same.of_entity
    have known : D r := same.left.among r (.self _)
    dsimp only
    rw [(lock.left _ _ rel).fills.typeOf, (lock.right _ _ rel).fills.typeOf]
    split
    · rename_i serializer declared
      refine (lock.serialize engines closed rel known declared).bind
        fun u u' table table' _ _ rel equal => ?_
      subst equal
      exact .pure rel rfl
    · exact (lock.report rel _ _).bind fun u u' _ _ _ _ rel _ => .pure rel rfl
  | _ =>
    cases same.of_scalar rfl
    exact .pure rel rfl

theorem Lockstep.instanceToJson {w w' : World} {s : Ref} (rel : Rel w w') (known : D s) :
    Ends Rel (fun _ _ json json' => json' = json) w w' ((instanceToJson e s).run w)
      ((instanceToJson e' s).run w') := by
  unfold Accessors.instanceToJson
  rw [EStateM.run_bind, EStateM.run_get, EStateM.run_bind, EStateM.run_get]
  dsimp only
  rw [(lock.left _ _ rel).fills.typeOf, (lock.right _ _ rel).fills.typeOf]
  split
  · rename_i serializer declared
    refine (lock.serialize engines closed rel known declared).bind
      fun u u' table table' _ _ rel equal => ?_
    subst equal
    exact .pure rel rfl
  · exact .error (.refl w) (.refl w') rel

omit engines

theorem Lockstep.engine_paired {depth depth' : Nat} (deeper : depth ≤ depth') :
    Engine.Paired w₀ D Reads Rel (engine depth) (engine depth') := by
  induction depth generalizing depth' with
  | zero => exact ⟨fun _ _ _ _ _ _ _ _ => .tooDeep, fun _ _ _ _ _ _ => .tooDeep⟩
  | succ depth ih =>
    obtain ⟨below, rfl⟩ : ∃ below, depth' = below + 1 := ⟨depth' - 1, by omega⟩
    have paired := ih (Nat.le_of_succ_le_succ deeper)
    exact ⟨fun w w' s p rel known mem reads => lock.invoke paired closed rel known mem reads,
      fun w w' v v' rel same => lock.valueToJson paired closed rel same⟩

end

end Accessors
