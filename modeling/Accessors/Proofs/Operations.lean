import Accessors.Proofs.Stepwise

/-! All of the engine goes step by step: invoking properties, evaluating instructions,
running scripts, serializing. One lemma for each operation, given that the engine one
level down goes step by step; the engines of every depth follow by induction. -/

namespace Accessors

structure Engine.Steps (ρ : Rules) (e : Engine) : Prop where
  ruled : ρ.engines e
  run : ∀ body this args, Stepwise ρ (e.run body this args)
  readNested : ∀ p this, p.kind.Obeys ρ.admits → Stepwise ρ (e.readNested p this)
  toJson : ∀ v, Stepwise ρ (e.toJson v)

namespace Rules
variable {ρ : Rules} {w : World}

theorem typeOf_cases (types : w.types = ρ.types) (r : Ref) :
    w.typeOf r ∈ ρ.types ∨ w.typeOf r = .bare "" := by
  unfold World.typeOf
  rw [types]
  cases found : (w.typeId? r).bind (ρ.types[·]?) with
  | none => exact .inr rfl
  | some type =>
    obtain ⟨id, _, found⟩ := Option.bind_eq_some_iff.mp found
    exact .inl (Array.mem_of_getElem? found)

theorem typeNamed_cases (types : w.types = ρ.types) (id : TypeId) :
    w.typeNamed id ∈ ρ.types ∨ w.typeNamed id = .bare "" := by
  unfold World.typeNamed
  rw [types]
  cases found : ρ.types[id]? with
  | none => exact .inr rfl
  | some type => exact .inl (Array.mem_of_getElem? found)

theorem obeys_of_values {type : EntityType} (h : type ∈ ρ.types ∨ type = .bare "")
    {p : Property} (mem : p ∈ type.properties.values) : p.kind.Obeys ρ.admits := by
  rcases h with h | rfl
  · exact ρ.declared type h p mem
  · simp [EntityType.bare, Table.values, Table.entries, Table.empty] at mem

end Rules

theorem DateField.obeys (admits : Admission) (id : Nat) (field : DateField) :
    (field.property id).kind.Obeys admits := by
  cases field <;> trivial

theorem dateBehavior_property? {name : String} {p : Property}
    (found : dateBehavior.property? name = some p) :
    ∃ id field, p = DateField.property id field := by
  obtain ⟨entry, mem, rfl⟩ := Table.mem_values_ofList (Table.mem_values_of_get? found)
  obtain ⟨given, _, rfl⟩ := List.mem_map.mp mem
  exact ⟨_, _, rfl⟩

theorem NativeType.construct_holds {t : NativeType} {args : List Value} {w w' : World} {v : Value}
    (ran : (t.construct args).run w = .ok v w') : (Constructor.native t).Holds w' v := by
  cases t with
  | integer =>
    cases ran
    exact .inr ⟨rfl, _, rfl⟩
  | object | plainObject =>
    unfold construct at ran
    simp only [EStateM.run_bind, EStateM.run_get] at ran
    split at ran
    all_goals cases ran; exact .inl rfl
  | date =>
    unfold construct at ran
    simp only [EStateM.run_bind, EStateM.run_get] at ran
    cases taken : w.momentOf args with
    | ok moment =>
      rw [taken] at ran
      cases ran
      exact .inl rfl
    | error error =>
      rw [taken] at ran
      cases ran
  | _ =>
    cases ran
    exact .inl rfl

theorem constructEntity_run (e : Engine) (t : TypeId) (args : List Value) (w : World) :
    (constructEntity e t args).run w =
      match (w.typeNamed t).initializer with
      | some body =>
        (e.run body (.entity w.objects.size) args >>= fun _ =>
          pure (.entity w.objects.size)).run (w.push (.entity ⟨t, .empty, []⟩))
      | none => .ok (.entity w.objects.size) (w.push (.entity ⟨t, .empty, []⟩)) := by
  have allocated : (alloc (.entity ⟨t, .empty, []⟩)).run w =
      .ok w.objects.size (w.push (.entity ⟨t, .empty, []⟩)) := rfl
  have type : (w.push (.entity ⟨t, .empty, []⟩)).typeNamed t = w.typeNamed t := rfl
  simp only [constructEntity, EStateM.run_bind, allocated, EStateM.run_get, type]
  cases (w.typeNamed t).initializer <;> rfl

theorem coerce_run (e : Engine) (c : Constructor) (v : Value) (args : List Value) (w : World) :
    (coerce e c v args).run w =
      if c.accepts w v then .ok v w else (c.construct e args).run w := by
  unfold coerce
  rw [EStateM.run_bind, EStateM.run_get]
  dsimp only
  split <;> rfl

section
variable {ρ : Rules} {e : Engine} 

theorem Getter.get_stepwise (he : e.Steps ρ) (g : Getter) (this : Value) :
    Stepwise ρ (g.get e this) := by
  cases g with
  | script body => exact he.run body this []
  | dateField field => exact .quiet (field.read_stays this)

theorem Setter.set_stepwise (he : e.Steps ρ) (s : Setter) (this value : Value) :
    Stepwise ρ (s.set e this value) := by
  cases s with
  | script body => exact .bind (he.run body this [value]) fun _ => .pure ()
  | dateField field => exact .quiet (field.write_stays value (Region.within_everything this))

theorem constructEntity_stepwise (he : e.Steps ρ) (type : TypeId) (args : List Value) :
    Stepwise ρ (constructEntity e type args) := by
  refine .bind (.create type) fun r => .look (fun _ _ _ => rfl) fun w _ => ?_
  split
  · exact .bind (he.run _ _ _) fun _ => .pure _
  · exact .pure _

theorem Constructor.construct_stepwise (he : e.Steps ρ) (c : Constructor) (args : List Value) :
    Stepwise ρ (c.construct e args) := by
  cases c with
  | native t => exact .quiet (t.construct_stays fun v _ => Region.within_everything v)
  | entity t => exact constructEntity_stepwise he t args

theorem Constructor.construct_holds (he : e.Steps ρ) {c : Constructor} {args : List Value}
    {w w' : World} {v : Value} (types : w.types = ρ.types)
    (ran : (c.construct e args).run w = .ok v w') : c.Holds w' v := by
  cases c with
  | native t => exact NativeType.construct_holds ran
  | entity t =>
    have made : (w.push (.entity ⟨t, .empty, []⟩)).typeId? w.objects.size = some t := by
      rw [World.typeId?_eq, World.getElem?_push, if_pos rfl]
      rfl
    rw [construct, constructEntity_run] at ran
    cases found : (w.typeNamed t).initializer with
    | none =>
      rw [found] at ran
      cases ran
      exact .inl (by simp [accepts, made])
    | some body =>
      rw [found] at ran
      obtain ⟨u, w₁, ending, ended⟩ := World.run_bind_ok ran
      cases ended
      have kept := (he.run body (.entity w.objects.size) args).typeId
        (w := w.push (.entity ⟨t, .empty, []⟩)) types made
      rw [World.after_eq_of_ok ending] at kept
      exact .inl (by simp [accepts, kept])

theorem receiver_stepwise (this : Value) : Stepwise ρ (receiver this) := by
  cases this with
  | entity r => exact .pure r
  | _ => exact .fail _

theorem unwrapNested_stepwise (he : e.Steps ρ) (nested : Value) :
    Stepwise ρ (unwrapNested e nested) := by
  cases nested with
  | entity r =>
    refine .look (fun _ _ _ => rfl) fun w types => ?_
    split
    · rename_i p found
      split
      · exact he.readNested p _ (Rules.obeys_of_values (Rules.typeOf_cases types r)
          (Table.mem_values_of_get? found))
      · exact .pure _
    · exact .pure _
  | _ => exact .pure _

theorem attachParent_stepwise (he : e.Steps ρ) (nested owner : Value) :
    Stepwise ρ (attachParent e nested owner) := by
  cases nested with
  | entity r =>
    refine .look (fun _ _ _ => rfl) fun w _ => ?_
    split
    · exact .bind (he.run _ _ _) fun _ => .pure ()
    · exact .pure ()
  | _ => exact .pure ()

theorem currentSlot_stepwise (r : Ref) (key : StorageKey) {make : Action Value}
    (h : Stepwise ρ make) : Stepwise ρ (currentSlot r key make) := by
  refine .look (fun _ _ _ => rfl) fun w _ => ?_
  split
  · split
    · exact h
    · exact .pure _
  · exact h

theorem readBasic_stepwise (r : Ref) {key : StorageKey} (default : Value) (policy : ClonePolicy)
    (admitted : ∀ w v, ρ.admits key w v) : Stepwise ρ (readBasic r key default policy) :=
  currentSlot_stepwise r key
    (.store r key (.quiet (policy.apply_stays (Region.within_everything default)))
      (fun _ v w' _ _ => admitted w' v) fun v => .pure v)

theorem readTyped_stepwise (he : e.Steps ρ) (r : Ref) {key : StorageKey} {c : Constructor}
    (defaults : List Value) (admitted : ∀ w v, c.Holds w v → ρ.admits key w v) :
    Stepwise ρ (readTyped e r key c defaults) := by
  refine .bind (currentSlot_stepwise r key ?_) fun nested => unwrapNested_stepwise he nested
  exact .place he.ruled r key (c.construct_stepwise he defaults)
    (fun _ v w' types ran => admitted w' v (Constructor.construct_holds he types ran))
    (fun v => attachParent_stepwise he v (.entity r)) fun v => .pure v

theorem ReadSide.read_stepwise (he : e.Steps ρ) (side : ReadSide) (this : Value) :
    Stepwise ρ (side.read e this) := by
  cases side with
  | getter g => exact g.get_stepwise he this
  | slot key =>
    exact .bind (receiver_stepwise this) fun r => .look (fun _ _ _ => rfl) fun _ _ => .pure _

theorem WriteSide.write_stepwise (he : e.Steps ρ) (side : WriteSide) (this value : Value)
    (obeys : (PropertyKind.writeOnly side).Obeys ρ.admits) :
    Stepwise ρ (side.write e this value) := by
  cases side with
  | setter s => exact s.set_stepwise he this value
  | slot key => exact .bind (receiver_stepwise this) fun r => .write fun w => obeys w value

theorem coerce_stepwise (he : e.Steps ρ) (c : Constructor) (v : Value) (args : List Value) :
    Stepwise ρ (coerce e c v args) := by
  refine .look (fun w _ _ => by cases c <;> cases v <;> rfl) fun w _ => ?_
  split
  · exact .pure v
  · exact c.construct_stepwise he args

theorem coerce_holds (he : e.Steps ρ) {c : Constructor} {v u : Value} {args : List Value}
    {w w' : World} (types : w.types = ρ.types)
    (ran : (coerce e c v args).run w = .ok u w') : c.Holds w' u := by
  rw [coerce_run] at ran
  split at ran
  · rename_i accepted
    cases ran
    exact .inl accepted
  · exact Constructor.construct_holds he types ran

def NextSteps (ρ : Rules) (next : Value → Option Constructor → Action Outcome) : Prop :=
  ∀ current owner, Stepwise ρ (next current owner)

theorem PropertyKind.invoke_stepwise (he : e.Steps ρ) {kind : PropertyKind}
    (obeys : kind.Obeys ρ.admits) (this : Value) (args : List Value)
    {next : Value → Option Constructor → Action Outcome} (hnext : NextSteps ρ next) :
    Stepwise ρ (kind.invoke e this args next) := by
  cases kind with
  | constant v =>
    cases args with
    | nil => exact .pure v
    | cons key rest =>
      exact .look (fun _ _ _ => by simp) fun w _ => .bind (.report _ _) fun _ => .pure this
  | readOnly side =>
    refine .bind (side.read_stepwise he this) fun current => ?_
    cases args with
    | nil => exact .pure current
    | cons key rest =>
      refine .bind (hnext current none) fun outcome => ?_
      cases outcome with
      | read v => exact .pure v
      | write _ | request => exact .bind (.report _ _) fun _ => .pure this
      | done => exact .pure this
  | writeOnly side =>
    cases args with
    | nil => exact .bind (.report _ _) fun _ => .pure _
    | cons v rest =>
      cases rest with
      | nil => exact .bind (side.write_stepwise he this v obeys) fun _ => .pure this
      | cons _ _ => exact .bind (.report _ _) fun _ => .pure _
  | custom g s =>
    refine .bind (g.get_stepwise he this) fun current => ?_
    cases args with
    | nil => exact .pure current
    | cons key rest =>
      refine .bind (hnext current none) fun outcome => ?_
      cases outcome with
      | read v => exact .pure v
      | write v => exact .bind (s.set_stepwise he this v) fun _ => .pure this
      | request => exact .bind (s.set_stepwise he this key) fun _ => .pure this
      | done => exact .pure this
  | basic slot default policy =>
    refine .bind (receiver_stepwise this) fun r => ?_
    refine .bind (readBasic_stepwise r default policy obeys) fun current => ?_
    cases args with
    | nil => exact .pure current
    | cons key rest =>
      refine .bind (hnext current none) fun outcome => ?_
      cases outcome with
      | read v => exact .pure v
      | write v => exact .bind (.write fun w => obeys w v) fun _ => .pure this
      | request => exact .bind (.write fun w => obeys w key) fun _ => .pure this
      | done => exact .pure this
  | typed slot c defaults =>
    refine .bind (receiver_stepwise this) fun r => ?_
    refine .bind (readTyped_stepwise he r defaults obeys) fun current => ?_
    have replaced (v : Value) (given : List Value) : Stepwise ρ (coerce e c v given >>= fun u =>
        place e r slot u >>= fun _ => pure this) :=
      .place he.ruled r slot (coerce_stepwise he c v given)
        (fun w u w' types ran => obeys w' u (coerce_holds he types ran))
        (fun u => attachParent_stepwise he u (.entity r)) fun _ => .pure this
    cases args with
    | nil => exact .pure current
    | cons key rest =>
      refine .bind (hnext current (some c)) fun outcome => ?_
      cases outcome with
      | read v => exact .pure v
      | write v => exact replaced v [v]
      | request => exact replaced key (key :: rest)
      | done => exact .pure this

theorem Rules.obeys_of_findProperty? {w : World} (types : w.types = ρ.types) {current : Value}
    {owner : Option Constructor} {name : String} {p : Property}
    (found : w.findProperty? current owner name = some p) : p.kind.Obeys ρ.admits := by
  have ofDate {name : String} {p : Property} (found : dateBehavior.property? name = some p) :
      p.kind.Obeys ρ.admits := by
    obtain ⟨id, field, rfl⟩ := dateBehavior_property? found
    exact field.obeys ρ.admits id
  unfold World.findProperty? at found
  rcases Option.or_eq_some_iff.mp found with found | ⟨_, found⟩
  · split at found
    · exact Rules.obeys_of_values (Rules.typeOf_cases types _) (Table.mem_values_of_get? found)
    · cases found
  · rcases Option.or_eq_some_iff.mp found with found | ⟨_, found⟩
    · obtain ⟨table, behaves, found⟩ := Option.bind_eq_some_iff.mp found
      obtain ⟨c, _, behaves⟩ := Option.bind_eq_some_iff.mp behaves
      unfold Constructor.behavior? at behaves
      split at behaves
      · cases behaves
        exact ofDate found
      · cases behaves
      · cases behaves
        exact Rules.obeys_of_values (Rules.typeNamed_cases types _)
          (Table.mem_values_of_get? found)
    · split at found
      · exact ofDate found
      · cases found

def CallSteps (ρ : Rules) (call : Property → Action Value) : Prop :=
  ∀ p : Property, p.kind.Obeys ρ.admits → Stepwise ρ (call p)

theorem builtin_stepwise {current : Value} {name : String} {f : Builtin}
    (found : builtin? current name = some f) (args : List Value) :
    Stepwise ρ (f current args) :=
  .quiet (builtin_stays found current args (Region.within_everything current) fun v _ =>
    Region.within_everything v)

theorem utility_stepwise {name : String} {f : Utility} (found : Utility.find? name = some f)
    (args : List Value) : Stepwise ρ (f args) :=
  .quiet (Utility.stays found args fun v _ => Region.within_everything v)

theorem applyMethod_stepwise (he : e.Steps ρ) (current : Value) (name : String) (assign : Bool)
    (args : List Value) (owner : Option Constructor) {call : Property → Action Value}
    (hcall : CallSteps ρ call) :
    Stepwise ρ (applyMethod e current name assign args owner call) := by
  have finish {a : Action Value} (h : Stepwise ρ a) :
      Stepwise ρ (a >>= fun result => pure (Outcome.of result assign)) :=
    .bind h fun _ => .pure _
  refine .look (fun _ _ _ => rfl) fun w types => ?_
  dsimp only
  split
  · split
    · exact .bind (Constructor.construct_stepwise he _ args) fun _ => .pure _
    · exact .fail _
  · split
    · exact finish (he.run _ current args)
    · split
      · rename_i p found
        exact finish (hcall p (Rules.obeys_of_findProperty? types found))
      · split
        · rename_i f found
          exact finish (builtin_stepwise found args)
        · split
          · exact finish (he.run _ current args)
          · split
            · rename_i f found
              exact finish (utility_stepwise found (current :: args))
            · exact finish (.fail _)

theorem applyStep_stepwise (he : e.Steps ρ) (op : Operator) (override : Option Script)
    (running operand : Value) : Stepwise ρ (applyStep e op override running operand) := by
  refine .look (fun _ _ _ => by simp) fun w _ => ?_
  split
  · exact he.run _ running [operand]
  · split
    · exact he.run _ .undefined [running, operand]
    · exact .pure _

theorem applySteps_stepwise (he : e.Steps ρ) (op : Operator) (override : Option Script)
    (running : Value) (args : List Value) :
    Stepwise ρ (applySteps e op override running args) := by
  induction args generalizing running with
  | nil => exact .pure running
  | cons operand rest ih =>
    exact .bind (applyStep_stepwise he op override running operand) fun next => ih next

theorem applyOperator_stepwise (he : e.Steps ρ) (current : Value) (op : Operator) (assign : Bool)
    (args : List Value) (owner : Option Constructor) :
    Stepwise ρ (applyOperator e current op assign args owner) :=
  .look (fun _ _ _ => rfl) fun _ _ =>
    .bind (applySteps_stepwise he op _ current args) fun _ => .pure _

theorem setKey_stepwise (v key value : Value) : Stepwise ρ (setKey v key value) := by
  cases v with
  | entity r => exact .look (fun _ _ _ => by simp) fun w _ => .write fun w => ρ.named _ w value
  | _ =>
    exact .quiet (setKey_stays (Region.within_everything _) rfl (Region.within_everything value))

theorem accessKey_stepwise (current key : Value) (args : List Value)
    {next : Value → Option Constructor → Action Outcome} (hnext : NextSteps ρ next) :
    Stepwise ρ (accessKey current key args next) := by
  refine .look (fun _ _ _ => by simp) fun w _ => ?_
  dsimp only
  split
  · exact .pure _
  · split
    · exact hnext _ none
    · exact .bind (setKey_stepwise _ _ _) fun _ => .pure _
  · split
    · exact .fail _
    · exact hnext _ none

theorem evaluateKey_stepwise (current key : Value) (args : List Value)
    (owner : Option Constructor) {next : Value → Option Constructor → Action Outcome}
    (hnext : NextSteps ρ next) {call : Property → Action Value} (hcall : CallSteps ρ call) :
    Stepwise ρ (evaluateKey current key args owner next call) := by
  have access : Stepwise ρ (if current.isKeyed then accessKey current key args next
      else pure .request) := by
    split
    · exact accessKey_stepwise current key args hnext
    · exact .pure _
  cases key with
  | str name =>
    refine .look (fun _ _ _ => rfl) fun w types => ?_
    split
    · rename_i p found
      exact .bind (hcall p (Rules.obeys_of_findProperty? types found)) fun result => .pure _
    · exact access
  | number n => exact access
  | _ => exact .pure _

theorem evaluateWith_stepwise (he : e.Steps ρ) (current key : Value) (args : List Value)
    (owner : Option Constructor) {next : Value → Option Constructor → Action Outcome}
    (hnext : NextSteps ρ next) {call : Property → Action Value} (hcall : CallSteps ρ call) :
    Stepwise ρ (evaluateWith e current key args owner next call) := by
  have plain := evaluateKey_stepwise current key args owner hnext hcall
  unfold evaluateWith
  split
  · exact .pure _
  · cases key with
    | str text =>
      dsimp only
      split
      · exact applyMethod_stepwise he current _ _ args owner hcall
      · split
        · exact .pure _
        · exact .fail _
      · split
        · exact plain
        · exact applyOperator_stepwise he current _ _ args owner
      · exact plain
    | _ => exact plain

theorem evaluate_stepwise (he : e.Steps ρ) (current key : Value) (args : List Value)
    (owner : Option Constructor) : Stepwise ρ (evaluate e current key args owner) := by
  induction args generalizing current key owner with
  | nil =>
    unfold evaluate
    exact evaluateWith_stepwise he current key [] owner (fun _ _ => .pure _) fun p obeys =>
      PropertyKind.invoke_stepwise he obeys current [] fun _ _ => .pure _
  | cons first rest ih =>
    unfold evaluate
    have hnext : NextSteps ρ fun inner innerOwner => evaluate e inner first rest innerOwner :=
      fun inner innerOwner => ih inner first innerOwner
    exact evaluateWith_stepwise he current key (first :: rest) owner hnext fun p obeys =>
      PropertyKind.invoke_stepwise he obeys current (first :: rest) hnext

theorem Property.invoke_stepwise (he : e.Steps ρ) {p : Property} (obeys : p.kind.Obeys ρ.admits)
    (this : Value) (args : List Value) : Stepwise ρ (p.invoke e this args) := by
  cases args with
  | nil => exact PropertyKind.invoke_stepwise he obeys this [] fun _ _ => .pure .done
  | cons key rest =>
    exact PropertyKind.invoke_stepwise he obeys this (key :: rest) fun current owner =>
      evaluate_stepwise he current key rest owner

theorem callMember_stepwise (he : e.Steps ρ) (this : Value) (name : String)
    (args : List Value) : Stepwise ρ (callMember e this name args) := by
  cases this with
  | entity r =>
    refine .look (fun _ _ _ => rfl) fun w types => ?_
    dsimp only
    split
    · rename_i p _ found
      exact Property.invoke_stepwise he (Rules.obeys_of_values (Rules.typeOf_cases types r)
        (Table.mem_values_of_get? found)) _ args
    · exact he.run _ _ args
    · exact .fail _
  | _ => exact .fail _

theorem addMember_stepwise (he : e.Steps ρ) (this : Value) (output : Table Json) (key : String)
    {p : Property} (obeys : p.kind.Obeys ρ.admits) :
    Stepwise ρ (addMember e this output key p) := by
  refine .bind (Property.invoke_stepwise he obeys this []) fun v =>
    .bind (he.toJson v) fun json => ?_
  cases json <;> exact .pure _

theorem addReadable_stepwise (he : e.Steps ρ) (this : Value) (excluded : List String)
    (output : Table Json) {members : List (String × Property)}
    (obey : ∀ member ∈ members, member.2.kind.Obeys ρ.admits) :
    Stepwise ρ (addReadable e this excluded output members) := by
  induction members generalizing output with
  | nil => exact .pure output
  | cons member rest ih =>
    obtain ⟨first, others⟩ := List.forall_mem_cons.mp obey
    unfold addReadable
    split
    · exact .bind (addMember_stepwise he this output _ first) fun output => ih output others
    · exact ih output others

theorem addEntries_stepwise (he : e.Steps ρ) (this : Value) {type : EntityType}
    (obey : ∀ p ∈ type.properties.values, p.kind.Obeys ρ.admits) (output : Table Json)
    (entries : List (String × Option String)) :
    Stepwise ρ (addEntries e this type output entries) := by
  induction entries generalizing output with
  | nil => exact .pure output
  | cons entry rest ih =>
    unfold addEntries
    split
    · rename_i p found
      obtain ⟨name, _, found⟩ := Option.bind_eq_some_iff.mp found
      have declared := (Option.filter_eq_some_iff.mp found).1
      exact .bind (addMember_stepwise he this output _ (obey p (Table.mem_values_of_get? declared)))
        fun output => ih output
    · exact .bind (.report _ _) fun _ => ih output

theorem Serializer.serialize_stepwise (he : e.Steps ρ) (s : Serializer) (this : Value)
    {type : EntityType} (obey : ∀ p ∈ type.properties.values, p.kind.Obeys ρ.admits) :
    Stepwise ρ (s.serialize e this type) := by
  have members : ∀ member ∈ type.properties.entries, member.2.kind.Obeys ρ.admits :=
    fun member mem => obey member.2 (List.mem_map_of_mem mem)
  cases s with
  | basic => exact addReadable_stepwise he this [] _ members
  | exclusive keys => exact addReadable_stepwise he this keys _ members
  | map entries => exact addEntries_stepwise he this obey _ _
  | inclusive keys => exact addEntries_stepwise he this obey _ _

theorem Rules.obeys_of_typeOf {w : World} (types : w.types = ρ.types) (r : Ref) :
    ∀ p ∈ (w.typeOf r).properties.values, p.kind.Obeys ρ.admits :=
  fun _ mem => Rules.obeys_of_values (Rules.typeOf_cases types r) mem

theorem instanceToJson_stepwise (he : e.Steps ρ) (r : Ref) :
    Stepwise ρ (instanceToJson e r) := by
  refine .look (fun _ _ _ => rfl) fun w types => ?_
  dsimp only
  split
  · exact .bind (Serializer.serialize_stepwise he _ _ (Rules.obeys_of_typeOf types r))
      fun _ => .pure _
  · exact .fail _

theorem itemsToJson_stepwise (he : e.Steps ρ) (items : List Value) :
    Stepwise ρ (itemsToJson e items) := by
  induction items with
  | nil => exact .pure []
  | cons item rest ih => exact .bind (he.toJson item) fun _ => .bind ih fun _ => .pure _

theorem fieldsToJson_stepwise (he : e.Steps ρ) (fields : List (String × Value)) :
    Stepwise ρ (fieldsToJson e fields) := by
  induction fields with
  | nil => exact .pure []
  | cons field rest ih =>
    refine .bind (he.toJson field.2) fun json => ?_
    cases json with
    | none => exact ih
    | some json => exact .bind ih fun _ => .pure _

theorem valueToJson_stepwise (he : e.Steps ρ) (v : Value) : Stepwise ρ (valueToJson e v) := by
  refine .look (fun _ _ _ => by cases v <;> rfl) fun w types => ?_
  cases v with
  | seq r => exact .bind (itemsToJson_stepwise he _) fun _ => .pure _
  | record r => exact .bind (fieldsToJson_stepwise he _) fun _ => .pure _
  | entity r =>
    dsimp only
    split
    · exact .bind (Serializer.serialize_stepwise he _ _ (Rules.obeys_of_typeOf types r))
        fun _ => .pure _
    · exact .bind (.report _ _) fun _ => .pure _
  | _ => exact .pure _

theorem newSeq_stepwise (items : List Value) : Stepwise ρ (newSeq items) :=
  .quiet (.newSeq fun v _ => Region.within_everything v)

mutual

theorem Literal.build_stepwise : (l : Literal) → Stepwise ρ l.build
  | .undefined | .null | .bool _ | .number _ | .str _ => by unfold Literal.build; exact .pure _
  | .seq items => by
    unfold Literal.build
    exact .bind (buildItems_stepwise items) fun values => newSeq_stepwise values
  | .record entries => by
    unfold Literal.build
    exact .bind (buildEntries_stepwise entries) fun _ =>
      .quiet (.newRecord fun v _ => Region.within_everything v)
  | .date moment => by
    unfold Literal.build
    exact .quiet (.newDate moment)
  | .variable name => by
    unfold Literal.build
    exact .look (fun _ _ _ => rfl) fun _ _ => .pure _

theorem Literal.buildItems_stepwise : (items : List Literal) → Stepwise ρ (buildItems items)
  | [] => by unfold Literal.buildItems; exact .pure []
  | item :: rest => by
    unfold Literal.buildItems
    exact .bind (build_stepwise item) fun _ => .bind (buildItems_stepwise rest) fun _ => .pure _

theorem Literal.buildEntries_stepwise :
    (entries : List (String × Literal)) → Stepwise ρ (buildEntries entries)
  | [] => by unfold Literal.buildEntries; exact .pure []
  | (key, value) :: rest => by
    unfold Literal.buildEntries
    exact .bind (build_stepwise value) fun _ => .bind (buildEntries_stepwise rest) fun _ => .pure _

end

mutual

theorem Script.eval_stepwise (he : e.Steps ρ) (this : Value) (args : List Value) :
    (s : Script) → Stepwise ρ (s.eval e this args)
  | .this | .argument _ => by unfold Script.eval; exact .pure _
  | .arguments => by
    unfold Script.eval
    exact newSeq_stepwise args
  | .literal l => by
    unfold Script.eval
    exact l.build_stepwise
  | .variable name => by
    unfold Script.eval
    exact .look (fun _ _ _ => rfl) fun _ _ => .pure _
  | .call on name given => by
    unfold Script.eval
    exact .bind (eval_stepwise he this args on) fun target =>
      .bind (evalAll_stepwise he this args given) fun values =>
        callMember_stepwise he target name values
  | .operate op lhs rhs => by
    unfold Script.eval
    exact .bind (eval_stepwise he this args lhs) fun a =>
      .bind (eval_stepwise he this args rhs) fun b =>
        .look (fun _ _ _ => by simp) fun _ _ => .pure _
  | .field on name => by
    unfold Script.eval
    refine .bind (eval_stepwise he this args on) fun target => ?_
    cases target with
    | entity r => exact .look (fun _ _ _ => rfl) fun _ _ => .pure _
    | _ => exact .pure _
  | .setField on name value => by
    unfold Script.eval
    refine .bind (eval_stepwise he this args on) fun target =>
      .bind (eval_stepwise he this args value) fun v => ?_
    cases target with
    | entity r => exact .bind (.write fun w => ρ.named name w v) fun _ => .pure _
    | _ => exact .pure _
  | .block steps => by
    unfold Script.eval
    exact .bind (evalAll_stepwise he this args steps) fun _ => .pure _
  | .list items => by
    unfold Script.eval
    exact .bind (evalAll_stepwise he this args items) fun values => newSeq_stepwise values
  | .choose test yes no => by
    unfold Script.eval
    refine .bind (eval_stepwise he this args test) fun v => ?_
    split
    · exact eval_stepwise he this args yes
    · exact eval_stepwise he this args no
  | .toNumber of => by
    unfold Script.eval
    exact .bind (eval_stepwise he this args of) fun v =>
      .look (fun _ _ _ => by simp) fun _ _ => .pure _
  | .toText of => by
    unfold Script.eval
    exact .bind (eval_stepwise he this args of) fun v =>
      .look (fun _ _ _ => by simp) fun _ _ => .pure _
  | .construct typeName given => by
    unfold Script.eval
    refine .bind (evalAll_stepwise he this args given) fun values =>
      .look (fun _ _ _ => rfl) fun w _ => ?_
    split
    · exact constructEntity_stepwise he _ values
    · exact .fail _
  | .report r => by
    unfold Script.eval
    exact .bind (.report r.kind r.text) fun _ => .pure _
  | .fail error => by
    unfold Script.eval
    exact .fail error

theorem Script.evalAll_stepwise (he : e.Steps ρ) (this : Value) (args : List Value) :
    (steps : List Script) → Stepwise ρ (evalAll e this args steps)
  | [] => by unfold Script.evalAll; exact .pure []
  | step :: rest => by
    unfold Script.evalAll
    exact .bind (eval_stepwise he this args step) fun _ =>
      .bind (evalAll_stepwise he this args rest) fun _ => .pure _

end

end

theorem engine_steps (ρ : Rules) (depth : Nat) : (engine depth).Steps ρ := by
  induction depth with
  | zero => exact ⟨ρ.nested 0, fun _ _ _ => .stop _, fun _ _ _ => .stop _, fun _ => .stop _⟩
  | succ depth ih =>
    exact ⟨ρ.nested (depth + 1), fun body this args => body.eval_stepwise ih this args,
      fun p this obeys => p.invoke_stepwise ih obeys this [],
      fun v => valueToJson_stepwise ih v⟩

/-- What a host may ask for: the accessor calls and the serializer's calls. -/
inductive Operation where
  | invoke (p : Property) (this : Value) (args : List Value)
  | call (this : Value) (name : String) (args : List Value)
  | read (this : Value) (name : String)
  | construct (type : TypeId) (args : List Value)
  | evaluate (current key : Value) (args : List Value) (owner : Option Constructor)
  | serialize (s : Serializer) (r : Ref)
  | instanceToJson (r : Ref)
  | valueToJson (v : Value)

namespace Operation

def Answer : Operation → Type
  | invoke .. | call .. | read .. | construct .. => Value
  | evaluate .. => Outcome
  | serialize .. => Table Json
  | instanceToJson .. => Json
  | valueToJson .. => Option Json

def performWith (op : Operation) (e : Engine) : Action op.Answer :=
  match op with
  | invoke p this args => p.invoke e this args
  | call this name args => callMember e this name args
  | read this name => callMember e this name []
  | construct type args => constructEntity e type args
  | evaluate current key args owner => Accessors.evaluate e current key args owner
  | serialize s r => do s.serialize e (.entity r) ((← get).typeOf r)
  | instanceToJson r => Accessors.instanceToJson e r
  | valueToJson v => Accessors.valueToJson e v

def perform (op : Operation) : Action op.Answer :=
  withEngine op.performWith

theorem perform_run (op : Operation) (w : World) :
    op.perform.run w = (op.performWith (engine w.depth)).run w :=
  rfl

def Obeys (admits : Admission) : Operation → Prop
  | invoke p _ _ => p.kind.Obeys admits
  | _ => True

theorem performWith_stepwise {ρ : Rules} {e : Engine} (he : e.Steps ρ) {op : Operation}
    (obeys : op.Obeys ρ.admits) : Stepwise ρ (op.performWith e) := by
  cases op with
  | invoke p this args => exact p.invoke_stepwise he obeys this args
  | call this name args => exact callMember_stepwise he this name args
  | read this name => exact callMember_stepwise he this name []
  | construct type args => exact constructEntity_stepwise he type args
  | evaluate current key args owner => exact evaluate_stepwise he current key args owner
  | serialize s r =>
    exact .look (fun _ _ _ => rfl) fun w types =>
      s.serialize_stepwise he _ (Rules.obeys_of_typeOf types r)
  | instanceToJson r => exact instanceToJson_stepwise he r
  | valueToJson v => exact valueToJson_stepwise he v

end Operation

end Accessors
