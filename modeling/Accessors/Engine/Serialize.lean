import Accessors.Engine.Evaluate
import Accessors.Inspect

/-! Serializing instances. The mode of the serializer chooses which properties are read,
in which order and under which names; what names no readable property is reported and
left out, as is what reads as undefined. -/

namespace Accessors

/-- Serializer keys have to be text. -/
def World.textKeys (w : World) : List Value → Except Error (List String)
  | [] => .ok []
  | .str key :: rest => return key :: (← w.textKeys rest)
  | other :: _ => .error (.invalidSerializerKey (w.debug other))

/-- The serializer that a list of mode arguments stands for. -/
def World.serializerOf (w : World) (args : List Value) : Except Error Serializer :=
  match args with
  | [] => .ok .basic
  | .record r :: _ => .ok (.map ((w.fields r).map Value.text?))
  | .str key :: rest =>
    if key = "-" then .exclusive <$> w.textKeys rest else .inclusive <$> w.textKeys args
  | _ => .inclusive <$> w.textKeys args

def EntityType.readable? (t : EntityType) (name : String) : Option Property :=
  (t.property? name).filter (·.mode.isReadable)

/-- Reads a property into an output under a key. -/
def addMember (e : Engine) (this : Value) (output : Table Json) (key : String) (p : Property) :
    Action (Table Json) := do
  let v ← p.invoke e this []
  match ← e.toJson v with
  | some json => pure (output.insert key json)
  | none => pure output

/-- Adds the readable properties, those of the given names left out. -/
def addReadable (e : Engine) (this : Value) (excluded : List String) (output : Table Json) :
    List (String × Property) → Action (Table Json)
  | [] => pure output
  | (name, p) :: rest => do
    if p.mode.isReadable && !excluded.contains name then
      addReadable e this excluded (← addMember e this output name p) rest
    else
      addReadable e this excluded output rest

/-- Adds one member for each entry of an output key and a source property. -/
def addEntries (e : Engine) (this : Value) (type : EntityType) (output : Table Json) :
    List (String × Option String) → Action (Table Json)
  | [] => pure output
  | (key, source) :: rest => do
    match source.bind type.readable? with
    | some p => addEntries e this type (← addMember e this output key p) rest
    | none =>
      reportNotProperty key
      addEntries e this type output rest

def Serializer.serialize (e : Engine) (s : Serializer) (this : Value) (type : EntityType) :
    Action (Table Json) :=
  match s with
  | basic => addReadable e this [] .empty type.properties.entries
  | exclusive keys => addReadable e this keys .empty type.properties.entries
  | map entries => addEntries e this type .empty entries.entries
  | inclusive keys => addEntries e this type .empty (keys.map fun key => (key, some key))

/-- The JSON form of an instance. -/
def instanceToJson (e : Engine) (r : Ref) : Action Json := do
  let type := (← get).typeOf r
  match type.serializer with
  | some s => return .object (← s.serialize e (.entity r) type).entries
  | none => fail (.invalidMethod (type.name ++ ".toJSON"))

def itemsToJson (e : Engine) : List Value → Action (List Json)
  | [] => pure []
  | item :: rest => do
    let json := (← e.toJson item).getD .null
    return json :: (← itemsToJson e rest)

def fieldsToJson (e : Engine) : List (String × Value) → Action (List (String × Json))
  | [] => pure []
  | (key, value) :: rest => do
    match ← e.toJson value with
    | some json => return (key, json) :: (← fieldsToJson e rest)
    | none => fieldsToJson e rest

/-- A number as JSON: an integer where that is safe; what is not finite has no form but null. -/
def numberToJson (n : Float) : Json :=
  match Number.safeInteger? n with
  | some i => .int i
  | none => if Number.isFinite n then .number n else .null

/-- The JSON form of a value, none when it is to be left out. Entities without serializer
are reported and left out. -/
def valueToJson (e : Engine) (v : Value) : Action (Option Json) := do
  let w ← get
  match v with
  | .undefined => pure none
  | .null => pure (some .null)
  | .bool b => pure (some (.bool b))
  | .number n => pure (some (numberToJson n))
  | .str s => pure (some (.str s))
  | .date r => pure (some (.str (w.moment r).display))
  | .seq r => return some (.array (← itemsToJson e (w.items r)))
  | .record r => return some (.object (← fieldsToJson e (w.fields r).entries))
  | .entity r =>
    let type := w.typeOf r
    match type.serializer with
    | some s => return some (.object (← s.serialize e v type).entries)
    | none =>
      report .error ("Invalid value for toJSON: " ++ type.name ++ " has no serializer")
      pure none

end Accessors
