import Accessors.Coercion
import Accessors.Text.Quoted

/-! Inspection texts of values, instances and entity types. They name the kind of every
part and quote every text. -/

namespace Accessors

/-- The inspection text of a value, the given number of levels down. -/
def World.debugWithin (w : World) (levels : Nat) (v : Value) : String :=
  match v with
  | .undefined => "Undefined"
  | .null => "Null"
  | .bool b => "Bool(" ++ (if b then "true" else "false") ++ ")"
  | .number n => "Number(" ++ Number.debug n ++ ")"
  | .str s => "Str(" ++ Text.quoted s ++ ")"
  | .date r => "Date(" ++ (w.moment r).debug ++ ")"
  | .entity r => "Entity(" ++ Text.quoted (w.typeOf r).name ++ ")"
  | .seq r =>
    match levels with
    | 0 => ""
    | levels + 1 =>
      "Seq([" ++ ", ".intercalate ((w.items r).map fun item => w.debugWithin levels item) ++ "])"
  | .record r =>
    match levels with
    | 0 => ""
    | levels + 1 =>
      "Record(\x7b" ++ ", ".intercalate ((w.fields r).entries.map fun entry =>
        Text.quoted entry.1 ++ ": " ++ w.debugWithin levels entry.2) ++ "\x7d)"

def World.debug (w : World) (v : Value) : String :=
  w.debugWithin w.levels v

def debugTexts (names : List String) : String :=
  "[" ++ ", ".intercalate (names.map Text.quoted) ++ "]"

/-- An instance shows its type and its named slots. -/
def World.debugInstance (w : World) (r : Ref) : String :=
  let slots := ((w.instance? r).map (·.named)).getD .empty
  let shown := slots.entries.map fun entry => Text.quoted entry.1 ++ ": " ++ w.debug entry.2
  "Instance \x7b type: " ++ Text.quoted (w.typeOf r).name ++ ", fields: \x7b" ++
    ", ".intercalate shown ++ "\x7d, .. \x7d"

def debugSource : Option String → String
  | some source => "Some(" ++ Text.quoted source ++ ")"
  | none => "None"

def Serializer.debug : Serializer → String
  | basic => "Basic"
  | exclusive keys => "Exclusive(" ++ debugTexts keys ++ ")"
  | inclusive keys => "Inclusive(" ++ debugTexts keys ++ ")"
  | map entries =>
    "Map(\x7b" ++ ", ".intercalate (entries.entries.map fun entry =>
      Text.quoted entry.1 ++ ": " ++ debugSource entry.2) ++ "\x7d)"

def EntityType.debug (t : EntityType) : String :=
  let serializer :=
    match t.serializer with
    | some s => "Some(" ++ s.debug ++ ")"
    | none => "None"
  "EntityType \x7b name: " ++ Text.quoted t.name ++
    ", properties: " ++ debugTexts t.properties.keys ++
    ", methods: " ++ debugTexts t.methods.keys ++
    ", operators: [" ++ ", ".intercalate (t.operators.map (·.1.name)) ++
    "], serializer: " ++ serializer ++ ", .. \x7d"

end Accessors
