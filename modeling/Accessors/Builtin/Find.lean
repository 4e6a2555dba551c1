import Accessors.Builtin.Sequence
import Accessors.Key

/-! Built-in methods by the kind of their receiver. Every value has a display form and
itself; text, numbers, sequences and records have methods of their own. -/

namespace Accessors

def displayed : Builtin := fun this _ => do
  pure (.str ((← get).display this))

def itself : Builtin := fun this _ => pure this

/-- A number with a fixed number of decimal places, none by default. -/
def toFixed : Builtin := fun this args => do
  let w ← get
  let places := if (argument args 0).isUndefined then 0 else w.toNumber (argument args 0)
  if 0 ≤ places ∧ places ≤ 100 then
    pure (.str (Number.fixed (Number.toInt64 places).toNat (w.toNumber this)))
  else
    fail (.invalidArguments ("toFixed digits out of range: " ++ Number.display places))

def hasOwnProperty : Builtin := fun this args => do
  pure (.bool ((← get).hasKey this (argument args 0)))

def builtin? (receiver : Value) (name : String) : Option Builtin :=
  match receiver, name with
  | _, "toString" => some displayed
  | _, "valueOf" => some itself
  | .str _, name => TextMethod.find? name
  | .number _, "toFixed" => some toFixed
  | .seq _, name => SequenceMethod.find? name
  | .record _, "hasOwnProperty" => some hasOwnProperty
  | _, _ => none

end Accessors
