import Accessors.Proofs.TypeNames

/-! The rules of options. Each kind of property has a rule that says which options declare it, and
options that follow none are refused. The checks all come before anything is made, and what follows
a rule is made without fail. Main statement: `options_made_by_rules`. -/

namespace Accessors

def IsVarName (name : String) : Prop :=
  ∃ rest, name.toList = '_' :: rest ∧ ¬ (rest ≠ [] ∧ ∀ c ∈ rest, '0' ≤ c ∧ c ≤ '9')

theorem checkVarName_ok {name : String} : checkVarName name = .ok () ↔ IsVarName name := by
  unfold checkVarName IsVarName
  split
  · rename_i rest spelled
    simp [spelled]
  · rename_i other
    simp only [reduceCtorEq, false_iff]
    rintro ⟨rest, spelled, _⟩
    exact other rest spelled

theorem checkVarName_error {name : String} {e : Error} (refused : checkVarName name = .error e) :
    e.isDefinition = true := by
  unfold checkVarName at refused
  split at refused
  · split at refused <;> cases refused
    rfl
  · cases refused
    rfl

def Value.NeedsType : Value → Prop
  | .date _ | .entity _ => True
  | _ => False

def ClonePolicy.forHeld : Value → ClonePolicy
  | .seq _ => shallow
  | .record _ => deep
  | _ => identity

theorem ClonePolicy.ofDefault_ok {v : Value} {policy : ClonePolicy} :
    ofDefault v = .ok policy ↔ ¬ v.NeedsType ∧ policy = forHeld v := by
  cases v <;> simp [ofDefault, forHeld, Value.NeedsType, eq_comm]

theorem ClonePolicy.ofDefault_error {v : Value} {e : Error} (refused : ofDefault v = .error e) :
    e.isDefinition = true := by
  cases v <;> cases refused <;> rfl

/-- What options declare: the kind of a property, but for the key of its slot. -/
inductive Rule where
  | constant (v : Value)
  | getter (body : Script)
  | reader (name : String)
  | setter (body : Script)
  | writer (name : String)
  | custom (get set : Script)
  | typed (c : Constructor) (defaults : List Value)
  | basic (default : Value) (policy : ClonePolicy)

namespace Rule

def kind (key : StorageKey) : Rule → PropertyKind
  | constant v => .constant v
  | getter body => .readOnly (.getter (.script body))
  | reader name => .readOnly (.slot (.named name))
  | setter body => .writeOnly (.setter (.script body))
  | writer name => .writeOnly (.slot (.named name))
  | custom get set => .custom (.script get) (.script set)
  | typed c defaults => .typed key c defaults
  | basic default policy => .basic key default policy

def mode : Rule → Mode
  | getter _ | reader _ => .readOnly
  | setter _ | writer _ => .writeOnly
  | constant _ | custom _ _ | typed _ _ | basic _ _ => .readWrite

/-- A reader and a writer have the slot of a name, and what keeps a value has the given one. -/
def storageKey? (key : StorageKey) : Rule → Option StorageKey
  | reader name | writer name => some (.named name)
  | typed _ _ | basic _ _ => some key
  | constant _ | getter _ | setter _ | custom _ _ => none

theorem mode_kind (rule : Rule) (key : StorageKey) (id : Nat) :
    Property.mode ⟨id, rule.kind key⟩ = rule.mode := by
  cases rule <;> rfl

theorem storageKey?_kind (rule : Rule) (key : StorageKey) (id : Nat) :
    Property.storageKey? ⟨id, rule.kind key⟩ = rule.storageKey? key := by
  cases rule <;> rfl

end Rule

/-- What `get` and `set` declare: a lone one may be a function or the name of a slot, but two have
to be functions. -/
inductive Accesses : Option GetOption → Option SetOption → Rule → Prop
  | getter (body : Script) : Accesses (some (.script body)) none (.getter body)
  | reader {name : String} (valid : IsVarName name) : Accesses (some (.var name)) none (.reader name)
  | setter (body : Script) : Accesses none (some (.script body)) (.setter body)
  | writer {name : String} (valid : IsVarName name) : Accesses none (some (.var name)) (.writer name)
  | custom (get set : Script) : Accesses (some (.script get)) (some (.script set)) (.custom get set)

theorem Accesses.given {get : Option GetOption} {set : Option SetOption} {rule : Rule}
    (access : Accesses get set rule) : (get.isSome || set.isSome) = true := by
  cases access <;> rfl

theorem Accesses.named {get : Option GetOption} {set : Option SetOption} {rule : Rule}
    {own : StorageKey} {name : String} (access : Accesses get set rule)
    (key : rule.storageKey? own = some (.named name)) : IsVarName name := by
  cases access with
  | reader valid | writer valid =>
    cases key
    exact valid
  | _ => cases key

def TypeRef.Resolves : TypeRef → Constructor → Prop
  | .name text, c => resolve text = .ok c
  | .entity type, c => c = .entity type

namespace Options

def default? (o : Options) : Option Value :=
  o.default.filter (!·.isUndefined)

inductive Follows (names : TypeRef → Constructor → Prop) (w : World) (o : Options) : Rule → Prop
  | constant {v : Value} (constant : o.constant = some v) (get : o.get = .none)
      (set : o.set = .none) (type : o.type = .none) (default : o.default? = .none)
      (var : o.var = .none) : Follows names w o (.constant v)
  | accessor {rule : Rule} (constant : o.constant = .none) (type : o.type = .none)
      (default : o.default? = .none) (var : o.var = .none) (access : Accesses o.get o.set rule) :
      Follows names w o rule
  | typed {ref : TypeRef} {c : Constructor} (constant : o.constant = .none) (get : o.get = .none)
      (set : o.set = .none) (type : o.type = some ref) (named : names ref c) :
      Follows names w o (.typed c (Synthesizer.defaultArguments w o.default?))
  | basic {v : Value} (constant : o.constant = .none) (get : o.get = .none) (set : o.set = .none)
      (type : o.type = .none) (held : o.default?.getD .undefined = v) (free : ¬ v.NeedsType) :
      Follows names w o (.basic v (.forHeld v))

/-- The documented rules: what is given as a storage name is one, and a rule is followed. -/
structure Declares (names : TypeRef → Constructor → Prop) (w : World) (o : Options) (rule : Rule) :
    Prop where
  var : ∀ name, o.var = some name → IsVarName name
  follows : o.Follows names w rule

/-- The key of the slot of a property that keeps its value in one. -/
def key (o : Options) (w : World) : StorageKey :=
  o.var.elim (.generated w.nextSlot) .named

def keyed (o : Options) (w : World) : World :=
  if o.constant = .none ∧ o.get = .none ∧ o.set = .none ∧ o.var = .none then
    { w with nextSlot := w.nextSlot + 1 }
  else w

theorem keyed_eq {o : Options} {w : World}
    (other : ¬ (o.constant = .none ∧ o.get = .none ∧ o.set = .none ∧ o.var = .none)) :
    o.keyed w = w :=
  if_neg other

end Options

def checkAccess : Option GetOption → Option SetOption → Except Error Rule
  | some (.script body), none => .ok (.getter body)
  | some (.var name), none => (checkVarName name).map fun _ => .reader name
  | none, some (.script body) => .ok (.setter body)
  | none, some (.var name) => (checkVarName name).map fun _ => .writer name
  | some (.script body), some (.script setBody) => .ok (.custom body setBody)
  | some _, some _ =>
    .error (.invalidOptions "a custom property needs a get function and a set function")
  | none, none => .error (.invalidOptions "neither get nor set was declared")

theorem map_eq_ok {α β : Type} {x : Except Error α} {f : α → β} {b : β} :
    x.map f = .ok b ↔ ∃ a, x = .ok a ∧ f a = b := by
  cases x <;> simp [Except.map]

theorem map_eq_error {α β : Type} {x : Except Error α} {f : α → β} {e : Error} :
    x.map f = .error e ↔ x = .error e := by
  cases x <;> simp [Except.map]

namespace Synthesizer

theorem checked_map {α β : Type} (s : Synthesizer) (x : Except Error α) (f : α → β)
    (k : β → Action Result) : s.checked (x.map f) k = s.checked x fun a => k (f a) := by
  cases x <;> rfl

def checkKept (s : Synthesizer) (w : World) (type : Option TypeRef) (default : Option Value) :
    Except Error Rule × Synthesizer :=
  match type with
  | some type =>
    ((s.constructorOf type).1.map fun c => .typed c (defaultArguments w default),
      (s.constructorOf type).2)
  | none =>
    ((ClonePolicy.ofDefault (default.getD .undefined)).map (.basic (default.getD .undefined)), s)

def checkDeclared (s : Synthesizer) (w : World) (o : Options) : Except Error Rule × Synthesizer :=
  match o.constant with
  | some v =>
    if o.get.isSome || o.set.isSome || o.type.isSome || o.var.isSome || o.default?.isSome then
      (.error (.invalidOptions "a constant cannot be declared with any other option"), s)
    else (.ok (.constant v), s)
  | none =>
    if o.get.isSome || o.set.isSome then
      if o.type.isSome || o.var.isSome || o.default?.isSome then
        (.error (.invalidOptions "get and set cannot be declared with type, var or default"), s)
      else (checkAccess o.get o.set, s)
    else s.checkKept w o.type o.default?

def check (s : Synthesizer) (w : World) (o : Options) : Except Error Rule × Synthesizer :=
  match o.var.elim (.ok ()) checkVarName with
  | .ok () => s.checkDeclared w o
  | .error e => (.error e, s)

def make (s : Synthesizer) (key : StorageKey) : Rule → Action Result
  | .reader name => s.share (.readVar name)
  | .writer name => s.share (.writeVar name)
  | rule => s.unshared (rule.kind key)

def conclude (key : StorageKey) (passed : Except Error Rule × Synthesizer) : Action Result :=
  passed.2.checked passed.1 (passed.2.make key)

variable {s : Synthesizer} {w : World} {o : Options}

theorem accessor_eq (s : Synthesizer) (key : StorageKey) (get : Option GetOption)
    (set : Option SetOption) :
    s.accessor get set = conclude key (checkAccess get set, s) := by
  rcases get with _ | body | name <;> rcases set with _ | setBody | setName <;>
    simp only [accessor, checkAccess, conclude, checked_map] <;> rfl

theorem keeping_run (s : Synthesizer) (w : World) (key : StorageKey) (type : Option TypeRef)
    (default : Option Value) :
    (s.keeping key type default).run w = (conclude key (s.checkKept w type default)).run w := by
  unfold keeping checkKept conclude
  cases type with
  | some type =>
    dsimp only
    rw [EStateM.run_bind, EStateM.run_get, checked_map]
    rfl
  | none =>
    dsimp only
    rw [checked_map]
    rfl

theorem stored_run (s : Synthesizer) (w : World) {o : Options} (constant : o.constant = none)
    (get : o.get = none) (set : o.set = none) :
    (s.stored o.type o.default? o.var).run w =
      (conclude (o.key w) (s.checkKept w o.type o.default?)).run (o.keyed w) := by
  unfold stored Options.key Options.keyed
  cases var : o.var with
  | some name =>
    simp only [reduceCtorEq, and_false, if_false, Option.elim_some]
    exact keeping_run s w (.named name) o.type o.default?
  | none =>
    simp only [constant, get, set, and_self, if_true, Option.elim_none]
    exact keeping_run s { w with nextSlot := w.nextSlot + 1 } (.generated w.nextSlot) o.type
      o.default?

theorem declared_run (s : Synthesizer) (w : World) (o : Options) :
    (s.declared o).run w = (conclude (o.key w) (s.checkDeclared w o)).run (o.keyed w) := by
  unfold declared checkDeclared
  rw [← Options.default?]
  cases constant : o.constant with
  | some v =>
    rw [Options.keyed_eq (by simp [constant])]
    dsimp only
    split <;> rfl
  | none =>
    dsimp only
    split
    · rename_i given
      have other : o.keyed w = w := Options.keyed_eq fun alone => by simp [alone] at given
      rw [other]
      split
      · rfl
      · rw [accessor_eq]
    · rename_i alone
      simp only [Bool.or_eq_true, not_or, Option.not_isSome_iff_eq_none] at alone
      exact stored_run s w constant alone.1 alone.2

theorem fromOptions_run (s : Synthesizer) (w : World) (o : Options) :
    (s.fromOptions o).run w = (conclude (o.key w) (s.check w o)).run (o.keyed w) := by
  unfold fromOptions check
  cases passed : o.var.elim (.ok ()) checkVarName with
  | ok => exact declared_run s w o
  | error e =>
    have named : o.var ≠ none := fun none => by simp [none] at passed
    rw [Options.keyed_eq fun alone => named alone.2.2.2]
    rfl

theorem checkAccess_ok {get : Option GetOption} {set : Option SetOption} {rule : Rule} :
    checkAccess get set = .ok rule ↔ Accesses get set rule := by
  have named {name : String} {made : Rule} :
      (checkVarName name).map (fun _ => made) = .ok rule ↔ IsVarName name ∧ made = rule := by
    rw [map_eq_ok, ← checkVarName_ok]
    constructor
    · rintro ⟨⟨⟩, passed, rfl⟩
      exact ⟨passed, rfl⟩
    · rintro ⟨passed, rfl⟩
      exact ⟨(), passed, rfl⟩
  constructor
  · intro passed
    unfold checkAccess at passed
    split at passed
    · cases passed
      exact .getter _
    · obtain ⟨valid, rfl⟩ := named.mp passed
      exact .reader valid
    · cases passed
      exact .setter _
    · obtain ⟨valid, rfl⟩ := named.mp passed
      exact .writer valid
    · cases passed
      exact .custom _ _
    · cases passed
    · cases passed
  · rintro (_ | valid | _ | valid | _)
    · rfl
    · exact named.mpr ⟨valid, rfl⟩
    · rfl
    · exact named.mpr ⟨valid, rfl⟩
    · rfl

def Names (s : Synthesizer) (type : TypeRef) (c : Constructor) : Prop :=
  (s.constructorOf type).1 = .ok c

theorem checkKept_typed {type : TypeRef} {default : Option Value} {rule : Rule} :
    (s.checkKept w (some type) default).1 = .ok rule ↔
      ∃ c, s.Names type c ∧ .typed c (defaultArguments w default) = rule :=
  map_eq_ok

theorem checkKept_basic {default : Option Value} {rule : Rule} :
    (s.checkKept w none default).1 = .ok rule ↔
      ¬ (default.getD .undefined).NeedsType ∧
        .basic (default.getD .undefined) (.forHeld (default.getD .undefined)) = rule := by
  refine map_eq_ok.trans ?_
  simp [ClonePolicy.ofDefault_ok, and_assoc]

theorem checkDeclared_ok {rule : Rule} :
    (s.checkDeclared w o).1 = .ok rule ↔ o.Follows s.Names w rule := by
  constructor
  · intro passed
    unfold checkDeclared at passed
    split at passed
    · rename_i v constant
      split at passed
      · cases passed
      · rename_i alone
        simp only [Bool.or_eq_true, not_or, Option.not_isSome_iff_eq_none] at alone
        obtain ⟨⟨⟨⟨get, set⟩, type⟩, var⟩, default⟩ := alone
        cases passed
        exact .constant constant get set type default var
    · rename_i constant
      split at passed
      · split at passed
        · cases passed
        · rename_i alone
          simp only [Bool.or_eq_true, not_or, Option.not_isSome_iff_eq_none] at alone
          obtain ⟨⟨type, var⟩, default⟩ := alone
          exact .accessor constant type default var (checkAccess_ok.mp passed)
      · rename_i neither
        simp only [Bool.or_eq_true, not_or, Option.not_isSome_iff_eq_none] at neither
        obtain ⟨get, set⟩ := neither
        cases type : o.type with
        | some ref =>
          rw [type] at passed
          obtain ⟨c, named, rfl⟩ := checkKept_typed.mp passed
          exact .typed constant get set type named
        | none =>
          rw [type] at passed
          obtain ⟨free, rfl⟩ := checkKept_basic.mp passed
          exact .basic constant get set type rfl free
  · intro follows
    unfold checkDeclared
    cases follows with
    | constant constant get set type default var =>
      simp [constant, get, set, type, default, var]
    | accessor constant type default var access =>
      simp only [constant, type, default, var, access.given]
      exact checkAccess_ok.mpr access
    | typed constant get set type named =>
      simp only [constant, get, set, type]
      exact checkKept_typed.mpr ⟨_, named, rfl⟩
    | basic constant get set type held free =>
      subst held
      simp only [constant, get, set, type]
      exact (checkKept_basic (w := w)).mpr ⟨free, rfl⟩

theorem check_ok {rule : Rule} : (s.check w o).1 = .ok rule ↔ o.Declares s.Names w rule := by
  have named : o.var.elim (.ok ()) checkVarName = .ok () ↔
      ∀ name, o.var = some name → IsVarName name := by
    cases o.var <;> simp [checkVarName_ok]
  unfold check
  cases checked : o.var.elim (.ok ()) checkVarName with
  | ok =>
    exact checkDeclared_ok.trans
      ⟨fun follows => ⟨named.mp checked, follows⟩, fun declares => declares.follows⟩
  | error e =>
    constructor
    · intro passed
      cases passed
    · intro declares
      rw [named.mpr declares.var] at checked
      cases checked

theorem constructorOf_error {type : TypeRef} {e : Error}
    (refused : (s.constructorOf type).1 = .error e) : e.isDefinition = true := by
  cases type with
  | name text =>
    unfold constructorOf resolve at refused
    dsimp only at refused
    split at refused <;> cases refused
    rfl
  | entity type => cases refused

theorem checkAccess_error {get : Option GetOption} {set : Option SetOption} {e : Error}
    (refused : checkAccess get set = .error e) : e.isDefinition = true := by
  unfold checkAccess at refused
  split at refused
  · cases refused
  · exact checkVarName_error (map_eq_error.mp refused)
  · cases refused
  · exact checkVarName_error (map_eq_error.mp refused)
  · cases refused
  · cases refused
    rfl
  · cases refused
    rfl

theorem checkKept_error {type : Option TypeRef} {default : Option Value} {e : Error}
    (refused : (s.checkKept w type default).1 = .error e) : e.isDefinition = true := by
  cases type with
  | some type => exact constructorOf_error (map_eq_error.mp refused)
  | none => exact ClonePolicy.ofDefault_error (map_eq_error.mp refused)

theorem check_error {e : Error} (refused : (s.check w o).1 = .error e) :
    e.isDefinition = true := by
  unfold check at refused
  cases checked : o.var.elim (.ok ()) checkVarName with
  | error e' =>
    rw [checked] at refused
    cases refused
    cases var : o.var with
    | none =>
      rw [var] at checked
      cases checked
    | some name =>
      rw [var] at checked
      exact checkVarName_error checked
  | ok =>
    rw [checked] at refused
    dsimp only at refused
    unfold checkDeclared at refused
    split at refused
    · split at refused <;> cases refused
      rfl
    · split at refused
      · split at refused
        · cases refused
          rfl
        · exact checkAccess_error refused
      · exact checkKept_error refused

theorem check_left (h : s.Faithful) (w : World) (o : Options) :
    (s.check w o).2.made = s.made ∧ (s.check w o).2.Faithful := by
  have kept (type : Option TypeRef) (default : Option Value) :
      (s.checkKept w type default).2.made = s.made ∧ (s.checkKept w type default).2.Faithful := by
    cases type with
    | some type => exact (h.constructorOf h type).2.symm
    | none => exact ⟨rfl, h⟩
  unfold check checkDeclared
  split
  · split
    · split <;> exact ⟨rfl, h⟩
    · split
      · split <;> exact ⟨rfl, h⟩
      · exact kept o.type o.default?
  · exact ⟨rfl, h⟩

theorem make_run (h : s.Faithful) (key : StorageKey) (rule : Rule) (w : World) :
    ∃ p s' w', (s.make key rule).run w = .ok (.ok p, s') w' ∧ p.kind = rule.kind key := by
  cases rule with
  | reader name | writer name =>
    obtain ⟨p, s', w', run, kind, _⟩ := share_gain h _ w
    exact ⟨p, s', w', run, kind⟩
  | _ => exact ⟨_, _, _, rfl, rfl⟩

theorem names_iff (h : s.Faithful) {type : TypeRef} {c : Constructor}
    (once : ∀ name, type = .name name → ¬ TwiceSeparated name) :
    s.Names type c ↔ type.Resolves c := by
  cases type with
  | name text =>
    have same : NativeType.ofName? (camel (camel text)) = NativeType.ofName? (camel text) :=
      Option.ext fun t => by simp [NativeType.ofName?_camel_camel, once text rfl]
    unfold Names constructorOf TypeRef.Resolves
    dsimp only
    rw [(h.camelName text).1, resolve, resolve, same]
    cases NativeType.ofName? (camel text) <;> simp
  | entity type => simp [Names, constructorOf, TypeRef.Resolves, eq_comm]

theorem names_twiceSeparated (h : s.Faithful) {name : String} (twice : TwiceSeparated name)
    {c : Constructor} : s.Names (.name name) c ↔ (TypeRef.name "plainObject").Resolves c := by
  have object : NativeType.ofName? (camel "plainObject") = some .plainObject := by decide +kernel
  have cased : NativeType.ofName? (camel (camel name)) = some .plainObject :=
    NativeType.ofName?_camel_camel.mpr (.inr ⟨rfl, twice⟩)
  unfold Names constructorOf TypeRef.Resolves
  dsimp only
  rw [(h.camelName name).1, resolve, resolve, cased, object]

/-- How options end by the rules. All checks come before anything is made. A property is made just
when a rule is followed, of the kind, the mode and the storage key of the rule, where a declared key
is a storage name. Else the options are refused as a definition, the checks leave what is shared as
it is, and nothing was made. -/
structure MakesBy (s : Synthesizer) (w : World) (o : Options) (rules : Rule → Prop) : Prop where
  checked : (s.fromOptions o).run w = (conclude (o.key w) (s.check w o)).run (o.keyed w)
  ends : ∃ outcome s' w', (s.fromOptions o).run w = .ok (outcome, s') w'
  succeeds : (∃ p s' w', (s.fromOptions o).run w = .ok (.ok p, s') w') ↔ ∃ rule, rules rule
  made : ∀ rule p s' w', rules rule → (s.fromOptions o).run w = .ok (.ok p, s') w' →
    p.kind = rule.kind (o.key w) ∧ p.mode = rule.mode ∧
      p.storageKey? = rule.storageKey? (o.key w) ∧
      ∀ name, p.storageKey? = some (.named name) → IsVarName name
  refused : ∀ e s' w', (s.fromOptions o).run w = .ok (.error e, s') w' →
    e.isDefinition = true ∧ s.check w o = (.error e, s') ∧ s'.made = s.made ∧
      w' = o.keyed w ∧ w'.nextProperty = w.nextProperty

end Synthesizer

namespace Options
variable {names names' : TypeRef → Constructor → Prop} {w : World} {o : Options} {rule : Rule}

theorem nextProperty_keyed (o : Options) (w : World) :
    (o.keyed w).nextProperty = w.nextProperty := by
  unfold keyed
  split <;> rfl

theorem Declares.named (declares : o.Declares names w rule) {name : String}
    (key : rule.storageKey? (o.key w) = some (.named name)) : IsVarName name := by
  have own (key : o.key w = .named name) : IsVarName name := by
    unfold Options.key at key
    cases var : o.var with
    | none => simp [var] at key
    | some other =>
      obtain rfl : other = name := by simpa [var] using key
      exact declares.var other var
  cases declares.follows with
  | constant => cases key
  | accessor _ _ _ _ access => exact access.named key
  | typed => exact own (Option.some.inj key)
  | basic => exact own (Option.some.inj key)

theorem Follows.mono (follows : o.Follows names w rule)
    (stands : ∀ ref c, o.type = some ref → names ref c → names' ref c) :
    o.Follows names' w rule := by
  cases follows with
  | constant constant get set type default var => exact .constant constant get set type default var
  | accessor constant type default var access => exact .accessor constant type default var access
  | typed constant get set type named => exact .typed constant get set type (stands _ _ type named)
  | basic constant get set type held free => exact .basic constant get set type held free

theorem declares_congr (same : ∀ ref c, o.type = some ref → (names ref c ↔ names' ref c)) :
    o.Declares names w rule ↔ o.Declares names' w rule := by
  constructor
  · intro declares
    exact ⟨declares.var, declares.follows.mono fun ref c type => (same ref c type).mp⟩
  · intro declares
    exact ⟨declares.var, declares.follows.mono fun ref c type => (same ref c type).mpr⟩

theorem declares_typed {ref : TypeRef} (type : o.type = some ref) :
    o.Declares names w rule ↔
      ((∀ name, o.var = some name → IsVarName name) ∧ o.constant = .none ∧ o.get = .none ∧
        o.set = .none) ∧
      ∃ c, names ref c ∧ .typed c (Synthesizer.defaultArguments w o.default?) = rule := by
  constructor
  · rintro ⟨var, follows⟩
    cases follows with
    | constant _ _ _ untyped | accessor _ untyped | basic _ _ _ untyped =>
      rw [type] at untyped
      cases untyped
    | typed constant get set type' named =>
      cases type.symm.trans type'
      exact ⟨⟨var, constant, get, set⟩, _, named, rfl⟩
  · rintro ⟨⟨var, constant, get, set⟩, c, named, rfl⟩
    exact ⟨var, .typed constant get set type named⟩

end Options

namespace Synthesizer
variable {s : Synthesizer} {w : World} {o : Options}

theorem makesBy_names (h : s.Faithful) (w : World) (o : Options) :
    s.MakesBy w o (o.Declares s.Names w) := by
  have run := s.fromOptions_run w o
  rcases checked : s.check w o with ⟨passed, left⟩
  have first : (s.check w o).1 = passed := congrArg Prod.fst checked
  have kept := s.check_left h w o
  rw [checked] at run kept
  cases passed with
  | ok rule =>
    have declares : o.Declares s.Names w rule := check_ok.mp first
    obtain ⟨p, s', w', made, kind⟩ := make_run kept.2 (o.key w) rule (o.keyed w)
    have ends : (s.fromOptions o).run w = .ok (.ok p, s') w' := run.trans made
    refine ⟨s.fromOptions_run w o, ⟨_, _, _, ends⟩,
      ⟨fun _ => ⟨rule, declares⟩, fun _ => ⟨_, _, _, ends⟩⟩, ?_, ?_⟩
    · intro rule' q s'' w'' declares' made'
      obtain rfl : rule = rule' := Except.ok.inj (first.symm.trans (check_ok.mpr declares'))
      rw [ends] at made'
      cases made'
      obtain ⟨id, _⟩ := p
      subst kind
      refine ⟨rfl, rule.mode_kind _ id, rule.storageKey?_kind _ id, fun name key => ?_⟩
      exact declares.named ((rule.storageKey?_kind _ id).symm.trans key)
    · intro e s'' w'' refused
      rw [ends] at refused
      cases refused
  | error e =>
    have ends : (s.fromOptions o).run w = .ok (.error e, left) (o.keyed w) := run
    refine ⟨s.fromOptions_run w o, ⟨_, _, _, ends⟩, ⟨?_, ?_⟩, ?_, ?_⟩
    · rintro ⟨p, s', w', made⟩
      rw [ends] at made
      cases made
    · rintro ⟨rule, declares⟩
      cases first.symm.trans (check_ok.mpr declares)
    · intro rule p s' w' _ made
      rw [ends] at made
      cases made
    · intro e' s' w' refused
      rw [ends] at refused
      cases refused
      exact ⟨check_error first, checked, kept.1, rfl, o.nextProperty_keyed w⟩

theorem MakesBy.congr {rules rules' : Rule → Prop} (h : s.MakesBy w o rules)
    (same : ∀ rule, rules rule ↔ rules' rule) : s.MakesBy w o rules' :=
  (funext fun rule => propext (same rule)) ▸ h

end Synthesizer

/-- At any time in a history of a synthesizer, options end by the documented rules unless their type
is given by a twice separated name. Such options follow no rule, and yet they end by the rules for
the same options with `plainObject` in the place of the name. -/
theorem options_made_by_rules {w : World} {s : Synthesizer} {attempts : List Attempt}
    (history : Synthesis w s attempts) (o : Options) :
    ((∀ name, o.type = some (.name name) → ¬ TwiceSeparated name) →
      s.MakesBy w o (o.Declares TypeRef.Resolves w)) ∧
    ∀ name, o.type = some (.name name) → TwiceSeparated name →
      (∀ rule, ¬ o.Declares TypeRef.Resolves w rule) ∧
      s.MakesBy w o
        ({ o with type := some (.name "plainObject") }.Declares TypeRef.Resolves w) := by
  have faithful := history.invariant.settled.faithful
  have ends := Synthesizer.makesBy_names faithful w o
  refine ⟨fun once => ends.congr fun rule => ?_, fun name type twice => ⟨?_, ?_⟩⟩
  · refine Options.declares_congr fun ref c type => Synthesizer.names_iff faithful ?_
    rintro name rfl
    exact once name type
  · intro rule declares
    obtain ⟨_, c, resolves, _⟩ := (Options.declares_typed type).mp declares
    have unnamed := NativeType.ofName?_camel_of_twiceSeparated twice
    simp [TypeRef.Resolves, resolve, unnamed] at resolves
  · refine ends.congr fun rule => ?_
    rw [Options.declares_typed type, Options.declares_typed rfl]
    simp only [Synthesizer.names_twiceSeparated faithful twice]
    rfl

/-- The options of a reader are accepted, and the reader has the slot of the name; a constant with a
storage name follows no rule and is refused. -/
theorem reader_and_bound_constant :
    let reader := { Options.none with get := some (.var "_a") }
    let bound := { Options.none with constant := some .null, var := some "_a" }
    (∃ p s' w', (Synthesizer.initial.fromOptions reader).run .initial = .ok (.ok p, s') w' ∧
      p.mode = .readOnly ∧ p.storageKey? = some (.named "_a")) ∧
    ¬ ∃ p s' w', (Synthesizer.initial.fromOptions bound).run .initial = .ok (.ok p, s') w' := by
  intro reader bound
  have untyped {o : Options} (none : o.type = none) (name : String)
      (type : o.type = some (.name name)) : ¬ TwiceSeparated name := by
    rw [none] at type
    cases type
  have accepted := (options_made_by_rules (.start .initial) reader).1 (untyped rfl)
  have refused := (options_made_by_rules (.start .initial) bound).1 (untyped rfl)
  have rule : reader.Declares TypeRef.Resolves .initial (.reader "_a") :=
    { var := fun _ unset => nomatch unset
      follows := .accessor rfl rfl rfl rfl (.reader ⟨['a'], rfl, by simp⟩) }
  refine ⟨?_, fun made => ?_⟩
  · obtain ⟨p, s', w', ends⟩ := accepted.succeeds.mpr ⟨_, rule⟩
    obtain ⟨_, mode, key, _⟩ := accepted.made _ _ _ _ rule ends
    exact ⟨p, s', w', ends, mode, key⟩
  · obtain ⟨_, _, follows⟩ := refused.succeeds.mp made
    cases follows with
    | constant _ _ _ _ _ unbound => cases unbound
    | accessor unset | typed unset | basic unset => cases unset

/-- No type has the name `plain__object`, so that options with it follow no rule; and yet they are
accepted. -/
theorem doubled_separator_accepted :
    let o := { Options.none with type := some (.name "plain__object") }
    (∀ rule, ¬ o.Declares TypeRef.Resolves .initial rule) ∧
      ∃ p s' w', (Synthesizer.initial.fromOptions o).run .initial = .ok (.ok p, s') w' := by
  intro o
  have unnamed : NativeType.ofName? (camel "plain__object") = none := by decide +kernel
  have cased : NativeType.ofName? (camel (camel "plain__object")) = some .plainObject := by
    decide +kernel
  have unbound : ∀ key, o.var = some key → checkVarName key = .ok () := by
    rintro key ⟨⟩
  refine ⟨fun rule declares => ?_, ?_⟩
  · obtain ⟨_, c, resolves, _⟩ := (Options.declares_typed rfl).mp declares
    simp [TypeRef.Resolves, resolve, unnamed] at resolves
  · obtain ⟨p, s', w', _, _, made, _⟩ := Synthesizer.fromOptions_name (w := .initial) .initial cased
      rfl rfl rfl rfl unbound
    exact ⟨p, s', w', made⟩

end Accessors
