import Accessors.Text.Case
import Accessors.Text.Search
import Accessors.Coercion

/-! The built-in methods of text. Positions count characters; relative positions count
from the end when negative and are cut off at the ends. -/

namespace Accessors

/-- A built-in method: what it does with its receiver and its arguments. -/
abbrev Builtin := Value → List Value → Action Value

/-- The place of a relative position in something of the given length. -/
def World.relative (w : World) (position : Value) (length default : Nat) : Nat :=
  if position.isUndefined then default
  else
    let n := w.toNumber position
    match Number.truncated? n with
    | some place => if place < 0 then (length + place).toNat else min place.toNat length
    | none => if 0 < n then length else 0

/-- The part of a list between two relative positions. -/
def World.slice {α : Type} (w : World) (xs : List α) (args : List Value) : List α :=
  let start := w.relative (argument args 0) xs.length 0
  let stop := w.relative (argument args 1) xs.length xs.length
  (xs.take stop).drop start

def characters (s : List Char) : List Value :=
  s.map fun c => .str (String.ofList [c])

namespace TextMethod

def chars : Value → List Char
  | .str s => s.toList
  | _ => []

def ofChars (s : List Char) : Value :=
  .str (String.ofList s)

/-- The characters of an argument's display form. -/
def needle (w : World) (args : List Value) : List Char :=
  (w.display (argument args 0)).toList

def mapped (f : List Char → List Char) : Builtin := fun this _ =>
  pure (ofChars (f (chars this)))

def charAt : Builtin := fun this args => do
  let place := (← get).toNumber (argument args 0)
  let found :=
    if 0 ≤ place then (chars this)[(Number.toInt64 place).toNat]? else none
  pure (ofChars found.toList)

def indexOf : Builtin := fun this args => do
  match Text.indexOf? (needle (← get) args) (chars this) with
  | some place => pure (.ofNat place)
  | none => pure (.ofInt (-1))

def slice : Builtin := fun this args => do
  pure (ofChars ((← get).slice (chars this) args))

def includes : Builtin := fun this args => do
  pure (.bool (Text.includes (needle (← get) args) (chars this)))

def startsWith : Builtin := fun this args => do
  pure (.bool ((needle (← get) args).isPrefixOf (chars this)))

def endsWith : Builtin := fun this args => do
  pure (.bool ((needle (← get) args).isSuffixOf (chars this)))

def greatestCount : Float := 4294967295

/-- A text many times over; however often, the empty one stays empty. -/
def copies (n : Nat) (s : List Char) : List Char :=
  if s = [] then [] else (List.replicate n s).flatten

def repeated : Builtin := fun this args => do
  let count := (← get).toNumber (argument args 0)
  if 0 ≤ count ∧ count ≤ greatestCount then
    pure (ofChars (copies (Number.toInt64 count).toNat (chars this)))
  else
    fail (.invalidArguments ("invalid repeat count " ++ Number.display count))

/-- The pieces of a text: the whole of it without a separator, its characters with an
empty one. -/
def pieces (s : List Char) : Option (List Char) → List Value
  | none => [ofChars s]
  | some [] => characters s
  | some (first :: others) => (Text.split first others s).map ofChars

def split : Builtin := fun this args => do
  let w ← get
  let separator := if (argument args 0).isUndefined then none else some (needle w args)
  newSeq (pieces (chars this) separator)

def concat : Builtin := fun this args => do
  let w ← get
  pure (ofChars (chars this ++ args.flatMap fun arg => (w.display arg).toList))

def find? : String → Option Builtin
  | "toUpperCase" => some (mapped Text.upper)
  | "toLowerCase" => some (mapped Text.lower)
  | "trim" => some (mapped Text.trim)
  | "charAt" => some charAt
  | "indexOf" => some indexOf
  | "slice" => some slice
  | "includes" => some includes
  | "startsWith" => some startsWith
  | "endsWith" => some endsWith
  | "repeat" => some repeated
  | "split" => some split
  | "concat" => some concat
  | _ => none

end TextMethod

end Accessors
