import Accessors.Builtin.Find
import Accessors.Copy

/-! Utilities: functions of any value, given as the first argument. Most of them look at
the value as a collection: the items of a sequence, the values of a record or the
characters of a text; anything else is an empty collection. -/

namespace Accessors

/-- A utility: what it does with its target and the further arguments. -/
abbrev Utility := List Value → Action Value

def World.collection (w : World) : Value → List Value
  | .seq r => w.items r
  | .record r => (w.fields r).values
  | .str s => characters s.toList
  | _ => []

/-- The first item that no later one beats, those that are no numbers left out. -/
def World.extreme (w : World) (better : Float → Float → Bool) (items : List Value) : Value :=
  let best := items.foldl
    (fun best item =>
      let n := w.toNumber item
      if n != n then best
      else
        match best with
        | none => some item
        | some current => if better n (w.toNumber current) then some item else best)
    none
  best.getD .undefined

/-- The items that equal none of those kept before them. -/
def World.distinct (w : World) (items : List Value) : List Value :=
  items.foldl
    (fun kept item => if kept.any (w.equal · item) then kept else kept ++ [item]) []

/-- Indices as texts. -/
def indexTexts (length : Nat) : List Value :=
  (List.range length).map fun i => .str (toString i)

def World.keysOf (w : World) : Value → List Value
  | .record r => (w.fields r).keys.map .str
  | .seq r => indexTexts (w.items r).length
  | .str s => indexTexts s.toList.length
  | _ => []

namespace Utility

def collected (f : List Value → Value) : Utility := fun args => do
  pure (f ((← get).collection (argument args 0)))

def values : Utility := fun args => do
  newSeq ((← get).collection (argument args 0))

def keys : Utility := fun args => do
  newSeq ((← get).keysOf (argument args 0))

def contains : Utility := fun args => do
  let w ← get
  let needle := argument args 1
  match argument args 0 with
  | .str s => pure (.bool (Text.includes (w.display needle).toList s.toList))
  | other => pure (.bool ((w.collection other).any (w.equal · needle)))

def has : Utility := fun args => do
  pure (.bool ((← get).hasKey (argument args 0) (argument args 1)))

def extreme (better : Float → Float → Bool) : Utility := fun args => do
  let w ← get
  pure (w.extreme better (w.collection (argument args 0)))

/-- The sum of nothing is negative zero, the neutral element of addition. -/
def sum : Utility := fun args => do
  let w ← get
  pure (.number ((w.collection (argument args 0)).foldl (fun n item => n + w.toNumber item) (-0.0)))

def uniq : Utility := fun args => do
  let w ← get
  newSeq (w.distinct (w.collection (argument args 0)))

def find? : String → Option Utility
  | "size" => some (collected fun items => .ofNat items.length)
  | "keys" => some keys
  | "values" => some values
  | "toArray" => some values
  | "first" => some (collected fun items => items.headD .undefined)
  | "last" => some (collected fun items => items.getLast?.getD .undefined)
  | "contains" => some contains
  | "includes" => some contains
  | "has" => some has
  | "max" => some (extreme fun a b => b < a)
  | "min" => some (extreme fun a b => a < b)
  | "sum" => some sum
  | "uniq" => some uniq
  | "isEmpty" => some (collected fun items => .bool items.isEmpty)
  | "clone" => some fun args => shallowCopy (argument args 0)
  | "cloneDeep" => some fun args => deepCopy (argument args 0)
  | _ => none

end Utility

end Accessors
