import Accessors.DateField
import Accessors.Json
import Accessors.Utility

/-! The engine: what accessor calls need from one level further down. Running a script,
reading the value of a nested entity and converting a nested value to JSON may each call
back into properties, so they are given as functions here; `Engine.Depth` ties the knot,
one level of nesting at a time. -/

namespace Accessors

/-- What a call with arguments means: a value to return, a value to store, a plain write
of what was given, or nothing left to do. -/
inductive Outcome where
  | read (value : Value)
  | write (value : Value)
  | request
  | done

def Outcome.of (value : Value) (assign : Bool) : Outcome :=
  if assign then write value else read value

structure Engine where
  run : Script → Value → List Value → Action Value
  readNested : Property → Value → Action Value
  toJson : Value → Action (Option Json)

def Getter.get (e : Engine) (g : Getter) (this : Value) : Action Value :=
  match g with
  | script body => e.run body this []
  | dateField field => field.read this

def Setter.set (e : Engine) (s : Setter) (this value : Value) : Action Unit :=
  match s with
  | script body => do
    let _ ← e.run body this [value]
  | dateField field => field.write this value

/-- An instance starts without slots and is then initialized. -/
def constructEntity (e : Engine) (type : TypeId) (args : List Value) : Action Value := do
  let this := Value.entity (← alloc (.entity ⟨type, .empty, []⟩))
  match ((← get).typeNamed type).initializer with
  | some body =>
    let _ ← e.run body this args
    pure this
  | none => pure this

namespace Constructor

def construct (e : Engine) (c : Constructor) (args : List Value) : Action Value :=
  match c with
  | native t => t.construct args
  | entity t => constructEntity e t args

def accepts (w : World) (c : Constructor) (v : Value) : Bool :=
  match c, v with
  | native t, v => t.accepts v
  | entity t, .entity r => w.typeId? r = some t
  | entity _, _ => false

/-- The table in which members of values of this type are found. -/
def behavior? (w : World) : Constructor → Option EntityType
  | native .date => some dateBehavior
  | native _ => none
  | entity t => some (w.typeNamed t)

def name (w : World) : Constructor → String
  | native t => t.name
  | entity t => (w.typeNamed t).name

end Constructor

/-- The receiver of a property that keeps its value in a slot. -/
def receiver (this : Value) : Action Ref :=
  match this with
  | .entity r => pure r
  | other =>
    fail (.invalidReceiver
      ("a storage-backed property was invoked on a " ++ other.kindName))

/-- What a typed property reads: the readable `value` property of a nested entity where
there is one, and otherwise the nested value itself. -/
def unwrapNested (e : Engine) (nested : Value) : Action Value := do
  match nested with
  | .entity r =>
    match ((← get).typeOf r).property? "value" with
    | some p => if p.mode.isReadable then e.readNested p nested else pure nested
    | none => pure nested
  | other => pure other

/-- Tells a nested entity its owner, if it declares `setParent`. -/
def attachParent (e : Engine) (nested owner : Value) : Action Unit := do
  match nested with
  | .entity r =>
    match ((← get).typeOf r).method? "setParent" with
    | some body =>
      let _ ← e.run body nested [owner]
    | none => pure ()
  | _ => pure ()

end Accessors
