import Accessors.Construct

/-! The properties of dates. A part reads as a number, months counted from 1; setting it
rebuilds the date, carrying what is out of range. The weekday counts from Sunday and is
read-only; `time` is the number of milliseconds since the epoch. -/

namespace Accessors
open Calendar

/-- The handle of a date. -/
def dateHandle : Value → Except Error Ref
  | .date r => .ok r
  | other => .error (.invalidReceiver ("date property on a " ++ other.kindName))

/-- What the number of a part is counted from. -/
def partBase : Part → Float
  | .month => 1
  | _ => 0

namespace DateField

def read (field : DateField) (this : Value) : Action Value := do
  let r ← ofExcept (dateHandle this)
  let moment := (← get).moment r
  match field with
  | part p => pure (.number (Number.ofInt (moment.parts.get p) + partBase p))
  | weekday => pure (.ofNat moment.weekday)
  | time => pure (.ofInt moment.millis)

def write (field : DateField) (this value : Value) : Action Unit := do
  let r ← ofExcept (dateHandle this)
  let w ← get
  match field with
  | part p =>
    let parts := ((w.moment r).parts.map Number.ofInt).set p (w.toNumber value - partBase p)
    let moment ← attempt (orInvalid
      ("date component out of range: " ++ w.display value) (momentOfParts parts).result)
    setMoment r moment
  | time =>
    let moment ← attempt (orInvalid
      ("not a timestamp: " ++ w.display value) (orRefused (momentOfMillis? (w.toNumber value))))
    setMoment r moment
  | weekday => pure ()

def property (id : Nat) (field : DateField) : Property :=
  match field with
  | weekday => ⟨id, .readOnly (.getter (.dateField weekday))⟩
  | field => ⟨id, .custom (.dateField field) (.dateField field)⟩

def named : List (String × DateField) := [
  ("year", part .year), ("month", part .month), ("date", part .day), ("day", weekday),
  ("hour", part .hour), ("minute", part .minute), ("second", part .second),
  ("millisecond", part .millisecond), ("time", time)]

end DateField

/-- The table that every date is looked up in. -/
def dateBehavior : EntityType :=
  { EntityType.bare "Date" with
    properties := Table.ofList
      (DateField.named.zipIdx.map fun entry => (entry.1.1, entry.1.2.property entry.2)) }

end Accessors
