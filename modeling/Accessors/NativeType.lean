import Accessors.Error
import Accessors.Instruction
import Accessors.Value

/-! The registry of native types. A type name resolves when its camel case is one of the
registered names; the registry is fixed. -/

namespace Accessors

inductive NativeType where
  | string
  | number
  | double
  | boolean
  | integer
  | object
  | plainObject
  | array
  | date
deriving DecidableEq

namespace NativeType

def all : List NativeType :=
  [string, number, double, boolean, integer, object, plainObject, array, date]

def name : NativeType → String
  | string => "string"
  | number => "number"
  | double => "double"
  | boolean => "boolean"
  | integer => "integer"
  | object => "object"
  | plainObject => "plainObject"
  | array => "array"
  | date => "date"

def ofName? (name : String) : Option NativeType :=
  all.find? (·.name = name)

/-- Whether a value can be stored as it is. Integers are always made anew. -/
def accepts : NativeType → Value → Bool
  | string, .str _ => true
  | number, .number _ | double, .number _ => true
  | boolean, .bool _ => true
  | object, .record _ | plainObject, .record _ => true
  | array, .seq _ => true
  | date, .date _ => true
  | _, _ => false

theorem ofName?_name (t : NativeType) : ofName? t.name = some t := by
  cases t <;> decide

end NativeType

/-- The place of an entity type in the world. -/
abbrev TypeId := Nat

/-- What the values of a typed property are made with. -/
inductive Constructor where
  | native (type : NativeType)
  | entity (type : TypeId)
deriving DecidableEq

def isRegistered (name : String) : Bool :=
  (NativeType.ofName? (camel name)).isSome

/-- The constructor of a registered type. -/
def resolve (name : String) : Except Error Constructor :=
  match NativeType.ofName? (camel name) with
  | some native => .ok (.native native)
  | none => .error (.unknownType name)

end Accessors
