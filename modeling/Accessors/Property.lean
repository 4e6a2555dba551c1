import Accessors.NativeType
import Accessors.Script
import Accessors.Value

/-! Properties: the accessors that entity types declare. The kind of a property fixes its
mode, where it keeps its value, and what a call with arguments may do to it. Two
properties are the same definition when they have the same identity. -/

namespace Accessors

inductive Mode where
  | readOnly
  | writeOnly
  | readWrite
deriving DecidableEq

def Mode.isReadable : Mode → Bool
  | readOnly | readWrite => true
  | writeOnly => false

def Mode.isWritable : Mode → Bool
  | writeOnly | readWrite => true
  | readOnly => false

/-- The slot of an instance in which a property keeps its value. A declared name may be
shared by several properties, a generated key never is. -/
inductive StorageKey where
  | named (name : String)
  | generated (id : Nat)
deriving DecidableEq

/-- How the default of a basic property gets into a new instance. -/
inductive ClonePolicy where
  | identity
  | shallow
  | deep
deriving DecidableEq

/-- Dates and entities are no defaults: a type has to make them for each instance. -/
def ClonePolicy.ofDefault : Value → Except Error ClonePolicy
  | .seq _ => .ok .shallow
  | .record _ => .ok .deep
  | .date r =>
    .error (.mutableDefault ("a default " ++ (Value.date r).kindName ++ " needs an associated type"))
  | .entity r =>
    .error (.mutableDefault ("a default " ++ (Value.entity r).kindName ++ " needs an associated type"))
  | _ => .ok .identity

/-- The properties every date has. -/
inductive DateField where
  | part (part : Calendar.Part)
  | weekday
  | time
deriving DecidableEq

inductive Getter where
  | script (body : Script)
  | dateField (field : DateField)

inductive Setter where
  | script (body : Script)
  | dateField (field : DateField)

inductive ReadSide where
  | getter (get : Getter)
  | slot (key : StorageKey)

inductive WriteSide where
  | setter (set : Setter)
  | slot (key : StorageKey)

inductive PropertyKind where
  | constant (value : Value)
  | readOnly (side : ReadSide)
  | writeOnly (side : WriteSide)
  | custom (get : Getter) (set : Setter)
  | basic (key : StorageKey) (default : Value) (policy : ClonePolicy)
  | typed (key : StorageKey) (constructor : Constructor) (defaults : List Value)

structure Property where
  id : Nat
  kind : PropertyKind

namespace Property

def mode (p : Property) : Mode :=
  match p.kind with
  | .readOnly _ => .readOnly
  | .writeOnly _ => .writeOnly
  | _ => .readWrite

def storageKey? (p : Property) : Option StorageKey :=
  match p.kind with
  | .readOnly (.slot key) => some key
  | .writeOnly (.slot key) => some key
  | .basic key _ _ => some key
  | .typed key _ _ => some key
  | _ => none

def kindName (p : Property) : String :=
  match p.kind with
  | .constant _ => "constant"
  | .readOnly _ => "read-only"
  | .writeOnly _ => "write-only"
  | .custom _ _ => "custom"
  | .basic _ _ _ => "basic"
  | .typed _ _ _ => "typed"

end Property

end Accessors
