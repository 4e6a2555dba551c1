import Accessors.Property
import Accessors.Table

/-! Entity types: declared kinds of objects, each with tables of properties and methods,
operator overrides, an initializer and a serializer. A declaration is a list of members;
it is refused when a name is declared twice, whether as property or as method. -/

namespace Accessors

/-- Which properties a serialized instance shows, and under which names. A source that is
absent in a map names no property. -/
inductive Serializer where
  | basic
  | exclusive (keys : List String)
  | map (entries : Table (Option String))
  | inclusive (keys : List String)

structure EntityType where
  name : String
  properties : Table Property
  methods : Table Script
  operators : List (Operator × Script)
  initializer : Option Script
  serializer : Option Serializer

namespace EntityType

def bare (name : String) : EntityType := ⟨name, .empty, .empty, [], none, none⟩

def property? (t : EntityType) (name : String) : Option Property :=
  t.properties.get? name

def method? (t : EntityType) (name : String) : Option Script :=
  t.methods.get? name

def override? (t : EntityType) (op : Operator) : Option Script :=
  t.operators.lookup op

def declares (t : EntityType) (name : String) : Bool :=
  t.properties.has name || t.methods.has name

end EntityType

inductive Member where
  | property (name : String) (property : Property)
  | method (name : String) (body : Script)
  | override (op : Operator) (body : Script)
  | initializer (body : Script)
  | serializer (serializer : Serializer)

/-- A type under construction, with the names that were declared more than once. -/
structure Declaration where
  type : EntityType
  duplicates : List String

namespace Declaration

def start (name : String) : Declaration := ⟨.bare name, []⟩

def noteName (d : Declaration) (name : String) : List String :=
  if d.type.declares name then d.duplicates ++ [name] else d.duplicates

/-- A later override, initializer or serializer replaces an earlier one. -/
def add (d : Declaration) : Member → Declaration
  | .property name p =>
    ⟨{ d.type with properties := d.type.properties.insert name p }, d.noteName name⟩
  | .method name body =>
    ⟨{ d.type with methods := d.type.methods.insert name body }, d.noteName name⟩
  | .override op body =>
    ⟨{ d.type with operators := (op, body) :: d.type.operators.filter (·.1 ≠ op) }, d.duplicates⟩
  | .initializer body => ⟨{ d.type with initializer := some body }, d.duplicates⟩
  | .serializer s => ⟨{ d.type with serializer := some s }, d.duplicates⟩

def addAll (d : Declaration) (members : List Member) : Declaration :=
  members.foldl add d

def build (d : Declaration) : Except Error EntityType :=
  if d.duplicates = [] then .ok d.type
  else
    .error (.invalidOptions
      (d.type.name ++ " declares " ++ ", ".intercalate d.duplicates ++ " more than once"))

end Declaration

end Accessors
