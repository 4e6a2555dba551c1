import Accessors.Engine.Basic

/-! Invoking a property. Without arguments it is a read. Otherwise the first argument is
an instruction for the current value, and the property stores, ignores or reports what
comes of it. How an instruction is evaluated is a parameter here: `next current owner`
evaluates the first argument on `current` with the remaining ones. -/

namespace Accessors

/-- The current value of a slot, filled by `make` when it is empty or undefined. -/
def currentSlot (r : Ref) (key : StorageKey) (make : Action Value) : Action Value := do
  match (← get).slot? r key with
  | some v => if v.isUndefined then make else pure v
  | none => make

def readBasic (r : Ref) (key : StorageKey) (default : Value) (policy : ClonePolicy) :
    Action Value :=
  currentSlot r key do
    let v ← policy.apply default
    setSlot r key v
    pure v

/-- Stores what a typed property is to hold; a nested entity is told its owner. -/
def place (e : Engine) (r : Ref) (key : StorageKey) (v : Value) : Action Unit := do
  setSlot r key v
  match v with
  | .entity nested =>
    note (.stored r key nested)
    attachParent e v (.entity r)
    note (.attached r nested)
  | _ => pure ()

def readTyped (e : Engine) (r : Ref) (key : StorageKey) (c : Constructor)
    (defaults : List Value) : Action Value := do
  let nested ← currentSlot r key do
    let v ← c.construct e defaults
    place e r key v
    pure v
  unwrapNested e nested

def ReadSide.read (e : Engine) (side : ReadSide) (this : Value) : Action Value := do
  match side with
  | getter g => g.get e this
  | slot key =>
    let r ← receiver this
    pure (((← get).slot? r key).getD .undefined)

def WriteSide.write (e : Engine) (side : WriteSide) (this value : Value) : Action Unit := do
  match side with
  | setter s => s.set e this value
  | slot key => setSlot (← receiver this) key value

/-- A value as the type wants it. -/
def coerce (e : Engine) (c : Constructor) (v : Value) (args : List Value) : Action Value := do
  if c.accepts (← get) v then pure v else c.construct e args

namespace PropertyKind

def invoke (e : Engine) (kind : PropertyKind) (this : Value) (args : List Value)
    (next : Value → Option Constructor → Action Outcome) : Action Value := do
  match kind with
  | constant v =>
    match args with
    | [] => pure v
    | _ =>
      reportConstantWrite ((← get).display v)
      pure this
  | readOnly side =>
    let current ← side.read e this
    match args with
    | [] => pure current
    | _ =>
      match ← next current none with
      | .read v => pure v
      | .write _ | .request =>
        reportReadOnlyWrite
        pure this
      | .done => pure this
  | writeOnly side =>
    match args with
    | [] =>
      reportWriteOnlyRead
      pure .undefined
    | [v] =>
      side.write e this v
      pure this
    | _ =>
      reportManyArguments
      pure .undefined
  | custom g s =>
    let current ← g.get e this
    match args with
    | [] => pure current
    | key :: _ =>
      match ← next current none with
      | .read v => pure v
      | .write v =>
        s.set e this v
        pure this
      | .request =>
        s.set e this key
        pure this
      | .done => pure this
  | basic slot default policy =>
    let r ← receiver this
    let current ← readBasic r slot default policy
    match args with
    | [] => pure current
    | key :: _ =>
      match ← next current none with
      | .read v => pure v
      | .write v =>
        setSlot r slot v
        pure this
      | .request =>
        setSlot r slot key
        pure this
      | .done => pure this
  | typed slot c defaults =>
    let r ← receiver this
    let current ← readTyped e r slot c defaults
    let replace (v : Value) : Action Value := do
      place e r slot v
      pure this
    match args with
    | [] => pure current
    | key :: _ =>
      match ← next current (some c) with
      | .read v => pure v
      | .write v => replace (← coerce e c v [v])
      | .request => replace (← coerce e c key args)
      | .done => pure this

end PropertyKind

end Accessors
