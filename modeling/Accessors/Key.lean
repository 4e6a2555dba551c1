import Accessors.Coercion

/-! Keyed access. Sequences are indexed by integers, negative ones counting from the end,
or by texts that are such integers; records and the named slots of entities by the display
form of any key. Reading a missing key gives undefined. A sequence can be written at its
positions and just past the last one. -/

namespace Accessors

/-- An integer of 64 bits that was a double for a moment: the nearest integer that a double can
be, within 64 bits. -/
def throughDouble (n : Int) : Int :=
  max Number.leastInt64 (min Number.greatestInt64
    (Number.signed (decide (n < 0)) (Number.roundedInteger n.natAbs)))

/-- The integer that a key stands for. Whole numbers beyond 64 bits stand for their ends. -/
def indexKey? : Value → Option Int
  | .number n => if Number.isWhole n then some (Number.toInt64 n) else none
  | .str s => (Number.int64? (Text.trim s.toList)).map throughDouble
  | _ => none

/-- The position of a key in a sequence of some length; it may lie past the end. -/
def position? (key : Value) (length : Nat) : Option Nat :=
  (indexKey? key).bind fun index =>
    let place := if 0 ≤ index then index else length + index
    if 0 ≤ place then some place.toNat else none

namespace World

def hasKey (w : World) (v key : Value) : Bool :=
  match v with
  | .seq r =>
    let length := (w.sequence r).size
    key.text? == some "length" || (position? key length).any (decide <| · < length)
  | .record r => (w.fields r).has (w.display key)
  | .entity r => w.hasMember r (w.display key)
  | _ => false

def getKey (w : World) (v key : Value) : Value :=
  match v with
  | .seq r =>
    let items := w.sequence r
    if key.text? = some "length" then .ofNat items.size
    else ((position? key items.size).bind (items[·]?)).getD .undefined
  | .record r => ((w.fields r).get? (w.display key)).getD .undefined
  | .entity r => w.field r (w.display key)
  | _ => .undefined

end World

def setKey (v key value : Value) : Action Unit := do
  let w ← get
  let shown := w.display key
  match v with
  | .seq r =>
    let length := (w.sequence r).size
    match position? key length with
    | none => fail (.invalidKey shown)
    | some place =>
      if place < length then changeItems r (·.setIfInBounds place value)
      else if place = length then changeItems r (·.push value)
      else
        fail (.invalidKey
          (shown ++ " is past the end of a sequence of length " ++ toString length))
  | .record r => changeFields r (·.insert shown value)
  | .entity r => setField r shown value
  | other => fail (.invalidKey (shown ++ " on a " ++ other.kindName))

end Accessors
