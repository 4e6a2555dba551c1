import Accessors.Number.Binary

/-! Dynamic values. Scalars are plain data; sequences, records, dates and entities are
handles of objects that live in the world, so that two values with the same handle
share what either of them changes. -/

namespace Accessors

/-- The place of an object in the world. -/
abbrev Ref := Nat

inductive Value where
  | undefined
  | null
  | bool (b : Bool)
  | number (n : Float)
  | str (s : String)
  | seq (r : Ref)
  | record (r : Ref)
  | date (r : Ref)
  | entity (r : Ref)
deriving Inhabited

namespace Value

def isUndefined : Value → Bool
  | undefined => true
  | _ => false

theorem eq_undefined {v : Value} (h : v.isUndefined = true) : v = .undefined := by
  cases v <;> first | rfl | cases h

def isNullish : Value → Bool
  | undefined | null => true
  | _ => false

/-- Values that can be addressed by a key. -/
def isKeyed : Value → Bool
  | seq _ | record _ | entity _ => true
  | _ => false

def isTruthy : Value → Bool
  | undefined | null => false
  | bool b => b
  | number n => n == n && n != 0
  | str s => s != ""
  | seq _ | record _ | date _ | entity _ => true

/-- The name of the kind of a value in messages. -/
def kindName : Value → String
  | undefined => "undefined"
  | null => "null"
  | bool _ => "boolean"
  | number _ => "number"
  | str _ => "string"
  | seq _ => "array"
  | record _ => "object"
  | date _ => "date"
  | entity _ => "entity"

/-- Identity: the same handle, or equal scalars. -/
def same : Value → Value → Bool
  | undefined, undefined | null, null => true
  | bool a, bool b => a == b
  | number a, number b => a == b
  | str a, str b => a == b
  | seq a, seq b | record a, record b | date a, date b | entity a, entity b => a == b
  | _, _ => false

def text? : Value → Option String
  | str s => some s
  | _ => none

def number? : Value → Option Float
  | number n => some n
  | _ => none

def bool? : Value → Option Bool
  | bool b => some b
  | _ => none

def ofNat (n : Nat) : Value :=
  number (Number.ofNat n)

def ofInt (n : Int) : Value :=
  number (Number.ofInt n)

end Value

/-- The argument at a position, undefined when there is none. -/
def argument (args : List Value) (i : Nat) : Value :=
  args.getD i .undefined

end Accessors
