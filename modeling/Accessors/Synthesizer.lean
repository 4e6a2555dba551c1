import Accessors.World

/-! Synthesis of properties from descriptors. Descriptors are checked at once: a constant
stands alone, `get` and `set` go with neither type, storage name nor default, and a storage
name is an underscore followed by anything but digits alone. Properties that hold nothing
of their own declaration are made once per synthesizer and shared afterwards. -/

namespace Accessors

inductive TypeRef where
  | name (name : String)
  | entity (type : TypeId)

inductive GetOption where
  | script (body : Script)
  | var (name : String)

inductive SetOption where
  | script (body : Script)
  | var (name : String)

structure Options where
  get : Option GetOption
  set : Option SetOption
  type : Option TypeRef
  default : Option Value
  constant : Option Value
  var : Option String

def Options.none : Options := ⟨.none, .none, .none, .none, .none, .none⟩

inductive Descriptor where
  | basic
  | shortcut (text : String)
  | constant (value : Value)
  | type (type : TypeRef)
  | options (options : Options)

/-- The kinds of shared properties. -/
inductive Shared where
  | readVar (name : String)
  | writeVar (name : String)
  | undefined
  | null
deriving DecidableEq

def Shared.kind : Shared → PropertyKind
  | readVar name => .readOnly (.slot (.named name))
  | writeVar name => .writeOnly (.slot (.named name))
  | undefined => .constant .undefined
  | null => .constant .null

/-- A synthesizer remembers the shared properties it has made and the names it has put into
camel case. It keeps what it has learned in a call that fails. -/
structure Synthesizer where
  made : List (Shared × Property)
  camelNames : List (String × String)

def Synthesizer.initial : Synthesizer := ⟨[], []⟩

def checkVarName (name : String) : Except Error Unit :=
  match name.toList with
  | '_' :: rest =>
    if rest ≠ [] ∧ rest.all (fun c => decide ('0' ≤ c ∧ c ≤ '9')) then
      .error (.invalidVarName (name ++ " is reserved for generated keys"))
    else .ok ()
  | _ => .error (.invalidVarName (name ++ " does not start with _"))

namespace Synthesizer

/-- What a call comes to, and the synthesizer that it leaves. -/
abbrev Result := Except Error Property × Synthesizer

def refuse (s : Synthesizer) (error : Error) : Action Result :=
  pure (.error error, s)

/-- Goes on with what has passed a check. -/
def checked {α : Type} (s : Synthesizer) : Except Error α → (α → Action Result) → Action Result
  | .ok a, k => k a
  | .error error, _ => s.refuse error

/-- A property that nothing is remembered of. -/
def unshared (s : Synthesizer) (kind : PropertyKind) : Action Result :=
  return (.ok (← newProperty kind), s)

/-- The shared property of a kind, made at its first use. -/
def share (s : Synthesizer) (shared : Shared) : Action Result := do
  match s.made.lookup shared with
  | some p => pure (.ok p, s)
  | none =>
    let p ← newProperty shared.kind
    pure (.ok p, { s with made := (shared, p) :: s.made })

/-- The camel case of a name, worked out at its first use. -/
def camelName (s : Synthesizer) (name : String) : String × Synthesizer :=
  match s.camelNames.lookup name with
  | some cased => (cased, s)
  | none =>
    let cased := camel name
    (cased, { s with camelNames := (name, cased) :: s.camelNames })

/-- A type given by name is looked up by its camel case. -/
def constructorOf (s : Synthesizer) : TypeRef → Except Error Constructor × Synthesizer
  | .name name =>
    let (cased, s) := s.camelName name
    (resolve cased, s)
  | .entity type => (.ok (.entity type), s)

/-- The items of a sequence are the arguments that make the default. -/
def defaultArguments (w : World) : Option Value → List Value
  | none => []
  | some (.seq r) => w.items r
  | some single => [single]

def accessor (s : Synthesizer) (getOption : Option GetOption) (setOption : Option SetOption) :
    Action Result :=
  match getOption, setOption with
  | some (.script body), none => s.unshared (.readOnly (.getter (.script body)))
  | some (.var name), none => s.checked (checkVarName name) fun _ => s.share (.readVar name)
  | none, some (.script body) => s.unshared (.writeOnly (.setter (.script body)))
  | none, some (.var name) => s.checked (checkVarName name) fun _ => s.share (.writeVar name)
  | some (.script body), some (.script setBody) =>
    s.unshared (.custom (.script body) (.script setBody))
  | some _, some _ =>
    s.refuse (.invalidOptions "a custom property needs a get function and a set function")
  | none, none => s.refuse (.invalidOptions "neither get nor set was declared")

/-- A declared storage name, or else a key of its own. -/
def storageKey : Option String → Action StorageKey
  | some name => pure (.named name)
  | none => newSlot

/-- A property that keeps its value under a key. -/
def keeping (s : Synthesizer) (key : StorageKey) (type : Option TypeRef)
    (default : Option Value) : Action Result := do
  match type with
  | some type =>
    let (found, s) := s.constructorOf type
    let w ← get
    s.checked found fun c => s.unshared (.typed key c (defaultArguments w default))
  | none =>
    let v := default.getD .undefined
    s.checked (ClonePolicy.ofDefault v) fun policy => s.unshared (.basic key v policy)

/-- A property that keeps its value in a slot. -/
def stored (s : Synthesizer) (type : Option TypeRef) (default : Option Value)
    (var : Option String) : Action Result := do
  s.keeping (← storageKey var) type default

/-- What options declare, whatever their storage name. An undefined default counts as none,
an undefined constant is a constant. -/
def declared (s : Synthesizer) (o : Options) : Action Result :=
  let default := o.default.filter (!·.isUndefined)
  match o.constant with
  | some v =>
    if o.get.isSome || o.set.isSome || o.type.isSome || o.var.isSome || default.isSome then
      s.refuse (.invalidOptions "a constant cannot be declared with any other option")
    else s.unshared (.constant v)
  | none =>
    if o.get.isSome || o.set.isSome then
      if o.type.isSome || o.var.isSome || default.isSome then
        s.refuse (.invalidOptions "get and set cannot be declared with type, var or default")
      else s.accessor o.get o.set
    else s.stored o.type default o.var

def fromOptions (s : Synthesizer) (o : Options) : Action Result :=
  s.checked (o.var.elim (.ok ()) checkVarName) fun _ => s.declared o

/-- What a shortcut abbreviates: a storage name or a type name. -/
def shortcutOptions (s : Synthesizer) (text : String) : Except Error Options × Synthesizer :=
  if text.toList.head? = some '_' then (.ok { Options.none with var := some text }, s)
  else
    let (cased, s) := s.camelName text
    if isRegistered cased then (.ok { Options.none with type := some (.name text) }, s)
    else (.error (.unknownType (text ++ " is neither a var name nor a type name")), s)

def synthesize (s : Synthesizer) : Descriptor → Action Result
  | .basic => s.fromOptions .none
  | .shortcut "undefined" => s.share .undefined
  | .shortcut "null" => s.share .null
  | .shortcut text =>
    let (options, s) := s.shortcutOptions text
    s.checked options s.fromOptions
  | .constant v => s.fromOptions { Options.none with constant := some v }
  | .type type => s.fromOptions { Options.none with type := some type }
  | .options o => s.fromOptions o

end Synthesizer

end Accessors
