import Accessors.Engine.Serialize

/-! The meaning of scripts. Parts are evaluated from left to right and the first failure
stops the script. Calls and constructions go to the engine given, one level down. -/

namespace Accessors

mutual

/-- Makes the value of a literal. A variable gives the very value it holds. -/
def Literal.build : Literal → Action Value
  | .undefined => pure .undefined
  | .null => pure .null
  | .bool b => pure (.bool b)
  | .number n => pure (.number n)
  | .str s => pure (.str s)
  | .seq items => do newSeq (← buildItems items)
  | .record entries => do newRecord (Table.ofList (← buildEntries entries))
  | .date moment => newDate moment
  | .variable name => return ((← get).bindings.get? name).getD .undefined

def Literal.buildItems : List Literal → Action (List Value)
  | [] => pure []
  | item :: rest => do
    let v ← item.build
    return v :: (← buildItems rest)

def Literal.buildEntries : List (String × Literal) → Action (List (String × Value))
  | [] => pure []
  | (key, value) :: rest => do
    let v ← value.build
    return (key, v) :: (← buildEntries rest)

end

mutual

/-- Evaluates a script for a receiver and arguments. -/
def Script.eval (e : Engine) (this : Value) (args : List Value) : Script → Action Value
  | .this => pure this
  | .argument i => pure (Accessors.argument args i)
  | .arguments => newSeq args
  | .literal l => l.build
  | .variable name => return ((← get).bindings.get? name).getD .undefined
  | .call on name given => do
    let target ← eval e this args on
    let values ← evalAll e this args given
    callMember e target name values
  | .operate op lhs rhs => do
    let a ← eval e this args lhs
    let b ← eval e this args rhs
    return op.apply (← get) a b
  | .field on name => do
    match ← eval e this args on with
    | .entity r => return (← get).field r name
    | _ => pure .undefined
  | .setField on name value => do
    let target ← eval e this args on
    let v ← eval e this args value
    match target with
    | .entity r => Accessors.setField r name v
    | _ => pure ()
    pure .undefined
  | .block steps => do
    let values ← evalAll e this args steps
    pure (values.getLast?.getD .undefined)
  | .list items => do newSeq (← evalAll e this args items)
  | .choose test yes no => do
    let v ← eval e this args test
    if v.isTruthy then eval e this args yes else eval e this args no
  | .toNumber of => do
    let v ← eval e this args of
    return .number ((← get).toNumber v)
  | .toText of => do
    let v ← eval e this args of
    return .str ((← get).display v)
  | .construct typeName given => do
    let values ← evalAll e this args given
    match (← get).findType? typeName with
    | some t => constructEntity e t values
    | none => Accessors.fail (.unknownType typeName)
  | .report r => do
    Accessors.report r.kind r.text
    pure .undefined
  | .fail error => Accessors.fail error

def Script.evalAll (e : Engine) (this : Value) (args : List Value) :
    List Script → Action (List Value)
  | [] => pure []
  | s :: rest => do
    let v ← eval e this args s
    return v :: (← evalAll e this args rest)

end

end Accessors
