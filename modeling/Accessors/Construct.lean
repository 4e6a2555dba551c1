import Accessors.Calendar.Reading
import Accessors.Copy

/-! Construction of native values from argument lists. Every type takes what it can from
its arguments and only dates can fail, on texts, timestamps or parts that are no date of
the calendar, or where reckoning with parts overflows. -/

namespace Accessors
open Calendar

/-- The integer at the start of a value's text, or a number without its fraction. -/
def World.leadingInteger (w : World) : Value → Float
  | .number n => if Number.isFinite n then Number.truncate n else Number.nan
  | other => Number.leadingInteger (w.display other)

def momentOfMillis? (millis : Float) : Option Moment :=
  if Number.isFinite millis then Moment.ofMillis? (Number.toInt64 millis) else none

/-- The moment of seven numbers, fractions dropped. -/
def momentOfParts (parts : Parts Float) : Reckoning Moment :=
  if parts.toList.all Number.isFinite then Moment.ofParts (parts.map Number.toInt64)
  else .ofOption none

/-- What missing parts of a date default to. -/
def defaultParts : Parts Float := ⟨0, 0, 1, 0, 0, 0, 0⟩

/-- What is refused is an invalid argument. -/
def orInvalid {α : Type} (text : String) : Except Fault α → Except Stop α
  | .ok a => .ok a
  | .error .refused => .error (.error (.invalidArguments text))
  | .error .overflow => .error .overflow

def World.momentOf (w : World) : List Value → Except Stop Moment
  | [] => .ok w.clock
  | [.date r] => .ok (w.moment r)
  | [.str s] => orInvalid ("not a date: " ++ s) (orRefused (Moment.read? s))
  | [single] =>
    orInvalid ("not a timestamp: " ++ w.display single)
      (orRefused (momentOfMillis? (w.toNumber single)))
  | parts =>
    orInvalid "date out of range"
      (momentOfParts (defaultParts.override (parts.map w.toNumber))).result

def World.arrayItems (w : World) : List Value → List Value
  | [.str s] => s.toList.map fun c => .str (String.ofList [c])
  | [.seq r] => w.items r
  | [.record r] => (w.fields r).values
  | args => args

def NativeType.construct (t : NativeType) (args : List Value) : Action Value := do
  let w ← get
  match t with
  | string => pure (.str ((args.head?.map w.display).getD ""))
  | number | double => pure (.number ((args.head?.map w.toNumber).getD 0))
  | boolean => pure (.bool (args.head?.any (·.isTruthy)))
  | integer => pure (.number ((args.head?.map w.leadingInteger).getD Number.nan))
  | object | plainObject =>
    match args with
    | .record r :: _ => newRecord (w.fields r)
    | _ => newRecord .empty
  | array => newSeq (w.arrayItems args)
  | date => do newDate (← attempt (w.momentOf args))

end Accessors
