import Accessors.Channel

/-! Errors and their texts. The first five causes arise while properties and types are
declared, the next four stop an accessor call, and misuse comes from the report channel
in strict mode. -/

namespace Accessors

inductive Error where
  | invalidVarName (text : String)
  | unknownType (name : String)
  | invalidOptions (text : String)
  | invalidSerializerKey (text : String)
  | mutableDefault (text : String)
  | invalidMethod (name : String)
  | invalidArguments (text : String)
  | invalidKey (key : String)
  | invalidReceiver (text : String)
  | misuse (report : Report)
  | io (text : String)
  | json
  | other (text : String)
deriving DecidableEq

namespace Error

def message : Error → String
  | invalidVarName text => "Invalid var name: " ++ text
  | unknownType name => "Invalid type name: " ++ name
  | invalidOptions text => "Invalid options: " ++ text
  | invalidSerializerKey text => "Invalid toJSON key: " ++ text
  | mutableDefault text => "Invalid default: " ++ text
  | invalidMethod name => "Invalid method " ++ name
  | invalidArguments text => "Wrong arguments: " ++ text
  | invalidKey key => "Invalid key: " ++ key
  | invalidReceiver text => "Invalid receiver: " ++ text
  | misuse report => report.kind.name ++ ": " ++ report.text
  | io text => "Error: " ++ text
  | json => "Error: invalid JSON"
  | other text => "Error: " ++ text

/-- Whether the error belongs to a declaration rather than to a call. -/
def isDefinition : Error → Bool
  | invalidVarName _ | unknownType _ | invalidOptions _ | invalidSerializerKey _
  | mutableDefault _ => true
  | _ => false

/-- Whether the error passes on a failure from outside. -/
def hasSource : Error → Bool
  | io _ | json => true
  | _ => false

end Error

end Accessors
