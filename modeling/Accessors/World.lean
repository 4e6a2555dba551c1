import Accessors.EntityType
import Accessors.Ghost
import Accessors.Logging

/-! The world: every object that values share, the declared types, logging and the named
values of the host, and the report channel with the history of what was announced. Calls
are actions on the world. An action that fails keeps the world it had reached, so nothing
done before an error is undone. -/

namespace Accessors

/-- An instance keeps named slots in the order in which they were first written. -/
structure Instance where
  typeId : TypeId
  named : Table Value
  generated : List (Nat × Value)

inductive Object where
  | seq (items : Array Value)
  | record (fields : Table Value)
  | date (moment : Calendar.Moment)
  | entity (inst : Instance)

/-- What a typed property does to a nested entity: it stores the entity in a slot of the
owner, and when the entity's `setParent` has returned, the entity is attached. -/
inductive Tie where
  | stored (owner : Ref) (key : StorageKey) (nested : Ref)
  | attached (owner nested : Ref)
deriving DecidableEq

/-- All that there is beside the report channel. `clock` is the moment that a date made
from nothing takes; `ties` has what happened to nested entities, in order. -/
structure Scene where
  objects : Array Object
  types : Array EntityType
  logging : Logging
  bindings : Table Value
  clock : Calendar.Moment
  nextSlot : Nat
  nextProperty : Nat
  ties : Ghost (List Tie)

/-- `history` has every report that was announced, whether or not a handler took it, with
the scene in which it was. -/
structure World extends Scene where
  channel : Channel
  history : Ghost (List (Report × Scene))

/-- Why an action stops: an error, calls nested more deeply than allowed, or arithmetic that
overflows. Nothing but an error can be caught. -/
inductive Stop where
  | error (error : Error)
  | tooDeep
  | overflow
deriving DecidableEq

abbrev Action := EStateM Stop World

def fail {α : Type} (error : Error) : Action α :=
  throw (.error error)

def ofExcept {α : Type} : Except Error α → Action α
  | .ok a => pure a
  | .error error => fail error

def attempt {α : Type} : Except Stop α → Action α
  | .ok a => pure a
  | .error stop => throw stop

namespace Instance

def slot? (inst : Instance) : StorageKey → Option Value
  | .named name => inst.named.get? name
  | .generated id => inst.generated.lookup id

def setSlot (inst : Instance) (key : StorageKey) (v : Value) : Instance :=
  match key with
  | .named name => { inst with named := inst.named.insert name v }
  | .generated id =>
    { inst with generated := (id, v) :: inst.generated.filter (·.1 ≠ id) }

theorem slot?_setSlot (inst : Instance) (key : StorageKey) (v : Value) :
    (inst.setSlot key v).slot? key = some v := by
  cases key <;> simp [setSlot, slot?, Table.get?_insert]

end Instance

namespace World

/-- The dates' nine properties have the first nine identities. -/
def initial : World :=
  ⟨⟨#[], #[], .initial, .empty, .epoch, 0, 9, .of []⟩, .initial, .of []⟩

/-- The items of a sequence, for access by position. -/
def sequence (w : World) (r : Ref) : Array Value :=
  match w.objects[r]? with
  | some (.seq items) => items
  | _ => #[]

def items (w : World) (r : Ref) : List Value :=
  (w.sequence r).toList

def fields (w : World) (r : Ref) : Table Value :=
  match w.objects[r]? with
  | some (.record fields) => fields
  | _ => .empty

def moment (w : World) (r : Ref) : Calendar.Moment :=
  match w.objects[r]? with
  | some (.date moment) => moment
  | _ => .epoch

def instance? (w : World) (r : Ref) : Option Instance :=
  match w.objects[r]? with
  | some (.entity inst) => some inst
  | _ => none

def typeId? (w : World) (r : Ref) : Option TypeId :=
  (w.instance? r).map (·.typeId)

/-- The type of an instance. -/
def typeOf (w : World) (r : Ref) : EntityType :=
  ((w.typeId? r).bind (w.types[·]?)).getD (.bare "")

def typeNamed (w : World) (id : TypeId) : EntityType :=
  w.types[id]?.getD (.bare "")

/-- The latest type of a name. -/
def findType? (w : World) (name : String) : Option TypeId :=
  (List.range w.types.size).reverse.find? fun id => (w.typeNamed id).name = name

def slot? (w : World) (r : Ref) (key : StorageKey) : Option Value :=
  (w.instance? r).bind (·.slot? key)

/-- The content of a named slot. -/
def field (w : World) (r : Ref) (name : String) : Value :=
  (w.slot? r (.named name)).getD .undefined

/-- Whether a name is a property, a method or a named slot of an instance. -/
def hasMember (w : World) (r : Ref) (name : String) : Bool :=
  (w.typeOf r).declares name || (w.slot? r (.named name)).isSome

/-- Changes one object and leaves all others alone. -/
def update (w : World) (r : Ref) (f : Object → Object) : World :=
  { w with objects := w.objects.modify r f }

end World

/-- Makes a new object. -/
def alloc (o : Object) : Action Ref :=
  modifyGet fun w => (w.objects.size, { w with objects := w.objects.push o })

def changeItems (r : Ref) (f : Array Value → Array Value) : Action Unit :=
  modify (·.update r fun
    | .seq items => .seq (f items)
    | o => o)

def changeFields (r : Ref) (f : Table Value → Table Value) : Action Unit :=
  modify (·.update r fun
    | .record fields => .record (f fields)
    | o => o)

def changeInstance (r : Ref) (f : Instance → Instance) : Action Unit :=
  modify (·.update r fun
    | .entity inst => .entity (f inst)
    | o => o)

def setMoment (r : Ref) (moment : Calendar.Moment) : Action Unit :=
  modify (·.update r fun
    | .date _ => .date moment
    | o => o)

def newSeq (items : List Value) : Action Value :=
  return .seq (← alloc (.seq items.toArray))

def newRecord (fields : Table Value) : Action Value :=
  return .record (← alloc (.record fields))

def newDate (moment : Calendar.Moment) : Action Value :=
  return .date (← alloc (.date moment))

def setSlot (r : Ref) (key : StorageKey) (v : Value) : Action Unit :=
  changeInstance r (·.setSlot key v)

def setField (r : Ref) (name : String) (v : Value) : Action Unit :=
  setSlot r (.named name) v

def World.note (w : World) (tie : Tie) : World :=
  { w with ties := w.ties.map (· ++ [tie]) }

def note (tie : Tie) : Action Unit :=
  modify (·.note tie)

/-- Hands a report to the handler and notes it in the history. -/
def World.announce (w : World) (report : Report) : World :=
  { w with
    channel := w.channel.deliver report
    history := w.history.map (· ++ [(report, w.toScene)]) }

/-- Announces a misuse; an error in strict mode only. -/
def report (kind : ReportKind) (text : String) : Action Unit := do
  let report : Report := ⟨kind, text⟩
  modify (·.announce report)
  if (← get).channel.strict then fail (.misuse report)

def reportConstantWrite (shown : String) : Action Unit :=
  report .typeError ("Write to a constant property, which is always " ++ shown)

def reportReadOnlyWrite : Action Unit :=
  report .typeError "Write to a read only property"

def reportManyArguments : Action Unit :=
  report .typeError "Write more than one argument"

def reportWriteOnlyRead : Action Unit :=
  report .typeError "Read a write only property"

def reportNotProperty (key : String) : Action Unit :=
  report .error ("Invalid key for toJSON: " ++ key ++ " is not a property")

def declareType (type : EntityType) : Action TypeId := do
  let w ← get
  set { w with types := w.types.push type }
  pure w.types.size

def newProperty (kind : PropertyKind) : Action Property := do
  let w ← get
  set { w with nextProperty := w.nextProperty + 1 }
  pure ⟨w.nextProperty, kind⟩

/-- A storage key that no other property has. -/
def newSlot : Action StorageKey := do
  let w ← get
  set { w with nextSlot := w.nextSlot + 1 }
  pure (.generated w.nextSlot)

end Accessors
