import Accessors.Engine.Invoke
import Accessors.Operator.Apply

/-! Evaluating instructions. The rules are tried in order: what is nullish can only be
written; then come method instructions, literals and operators; then properties of the
current value; then keyed access, which may descend; anything else is a plain write. The
recursion follows the arguments: each nested evaluation has one argument fewer. -/

namespace Accessors

/-- The property of a name on the current value: its type's own one, then the one of the
owner's table; dates without an owner have the table of dates. -/
def World.findProperty? (w : World) (current : Value) (owner : Option Constructor)
    (name : String) : Option Property :=
  let own :=
    match current with
    | .entity r => (w.typeOf r).property? name
    | _ => none
  let table := (owner.bind (·.behavior? w)).bind (·.property? name)
  let date :=
    match current, owner with
    | .date _, none => dateBehavior.property? name
    | _, _ => none
  own.or (table.or date)

/-- The method of a name that the current value's type declares. -/
def World.ownMethod? (w : World) (current : Value) (name : String) : Option Script :=
  match current with
  | .entity r => (w.typeOf r).method? name
  | _ => none

/-- Calls a method by name. A value's own methods come first, then its properties, the
built-ins of its kind, the owner's methods and the utilities. -/
def applyMethod (e : Engine) (current : Value) (name : String) (assign : Bool)
    (args : List Value) (owner : Option Constructor)
    (call : Property → Action Value) : Action Outcome := do
  let w ← get
  if name = "new" then
    match owner with
    | some c => return .write (← c.construct e args)
    | none => fail (.invalidMethod "new needs a typed property")
  else
    let result ←
      match w.ownMethod? current name with
      | some body => e.run body current args
      | none =>
        match w.findProperty? current owner name with
        | some p => call p
        | none =>
          match builtin? current name with
          | some f => f current args
          | none =>
            match (owner.bind (·.behavior? w)).bind (·.method? name) with
            | some body => e.run body current args
            | none =>
              match Utility.find? name with
              | some f => f (current :: args)
              | none => fail (.invalidMethod name)
    return .of result assign

/-- The owner's override of an operator. -/
def World.override? (w : World) (owner : Option Constructor) (op : Operator) : Option Script :=
  match owner with
  | some (.entity t) => (w.typeNamed t).override? op
  | _ => none

/-- One step of an operator: the method of that symbol on the running value, else the
owner's override, else the built-in meaning. -/
def applyStep (e : Engine) (op : Operator) (override : Option Script)
    (running operand : Value) : Action Value := do
  let w ← get
  match w.ownMethod? running op.symbol with
  | some body => e.run body running [operand]
  | none =>
    match override with
    | some body => e.run body .undefined [running, operand]
    | none => pure (op.apply w running operand)

def applySteps (e : Engine) (op : Operator) (override : Option Script) (running : Value) :
    List Value → Action Value
  | [] => pure running
  | operand :: rest => do
    applySteps e op override (← applyStep e op override running operand) rest

def applyOperator (e : Engine) (current : Value) (op : Operator) (assign : Bool)
    (args : List Value) (owner : Option Constructor) : Action Outcome := do
  let override := (← get).override? owner op
  return .of (← applySteps e op override current args) assign

/-- Keyed access: read the entry, or with one argument more assign it unless the argument
is one of its keys, or descend into it. -/
def accessKey (current key : Value) (args : List Value)
    (next : Value → Option Constructor → Action Outcome) : Action Outcome := do
  let w ← get
  let existing := w.getKey current key
  match args with
  | [] => pure (.read existing)
  | [last] =>
    if w.hasKey existing last then next existing none
    else
      setKey current key last
      pure .done
  | _ =>
    if existing.isNullish then fail (.invalidKey (w.display key))
    else next existing none

/-- A plain key: a property, an entry, or a value to be written. -/
def evaluateKey (current key : Value) (args : List Value) (owner : Option Constructor)
    (next : Value → Option Constructor → Action Outcome)
    (call : Property → Action Value) : Action Outcome := do
  match key with
  | .str name =>
    match (← get).findProperty? current owner name with
    | some p =>
      let result ← call p
      pure (if result.same current then .done else .read result)
    | none => if current.isKeyed then accessKey current key args next else pure .request
  | .number _ => if current.isKeyed then accessKey current key args next else pure .request
  | _ => pure .request

/-- One level of evaluation. `next` evaluates the first of `args` on a nested value, and
`call` invokes a property of the current value with them. -/
def evaluateWith (e : Engine) (current key : Value) (args : List Value)
    (owner : Option Constructor) (next : Value → Option Constructor → Action Outcome)
    (call : Property → Action Value) : Action Outcome := do
  if current.isNullish then pure .request
  else
    match key with
    | .str text =>
      match Instruction.parse text with
      | .method name assign => applyMethod e current name assign args owner call
      | .literal literal =>
        if args.isEmpty then pure (.write (.str literal))
        else fail (.invalidArguments ("the literal " ++ text ++ " takes no arguments"))
      | .operator op assign =>
        if args.isEmpty then evaluateKey current key args owner next call
        else applyOperator e current op assign args owner
      | .key _ => evaluateKey current key args owner next call
    | _ => evaluateKey current key args owner next call

def evaluate (e : Engine) (current key : Value) (args : List Value)
    (owner : Option Constructor) : Action Outcome :=
  match args with
  | [] =>
    let next : Value → Option Constructor → Action Outcome := fun _ _ => pure .done
    evaluateWith e current key [] owner next fun p => p.kind.invoke e current [] next
  | first :: rest =>
    let next := fun inner innerOwner => evaluate e inner first rest innerOwner
    evaluateWith e current key (first :: rest) owner next fun p =>
      p.kind.invoke e current (first :: rest) next

/-- Invokes a property on `this`. -/
def Property.invoke (e : Engine) (p : Property) (this : Value) (args : List Value) :
    Action Value :=
  match args with
  | [] => p.kind.invoke e this [] fun _ _ => pure .done
  | key :: rest =>
    p.kind.invoke e this (key :: rest) fun current owner => evaluate e current key rest owner

/-- Calls a member of an entity: the property of that name, or else the method. -/
def callMember (e : Engine) (this : Value) (name : String) (args : List Value) :
    Action Value := do
  match this with
  | .entity r =>
    let type := (← get).typeOf r
    match type.property? name, type.method? name with
    | some p, _ => p.invoke e this args
    | none, some body => e.run body this args
    | none, none => fail (.invalidMethod (type.name ++ "." ++ name))
  | other => fail (.invalidReceiver ("cannot call " ++ name ++ " on a " ++ other.kindName))

end Accessors
