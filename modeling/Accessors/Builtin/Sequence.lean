import Accessors.Builtin.Text
import Accessors.Equality

/-! The built-in methods of sequences. Appending, removing the last item and reversing
change the receiver; the others make new values. -/

namespace Accessors.SequenceMethod

def itemsOf (w : World) : Value → List Value
  | .seq r => w.items r
  | _ => []

def push : Builtin := fun this args => do
  match this with
  | .seq r =>
    changeItems r (· ++ args.toArray)
    pure (.ofNat ((← get).sequence r).size)
  | _ => pure .undefined

def pop : Builtin := fun this _ => do
  match this with
  | .seq r =>
    let last := ((← get).sequence r).back?
    changeItems r (·.pop)
    pure (last.getD .undefined)
  | _ => pure .undefined

def reverse : Builtin := fun this _ => do
  match this with
  | .seq r => changeItems r (·.reverse)
  | _ => pure ()
  pure this

def slice : Builtin := fun this args => do
  let w ← get
  newSeq (w.slice (itemsOf w this) args)

def indexOf : Builtin := fun this args => do
  let w ← get
  match (itemsOf w this).findIdx? (w.equal · (argument args 0)) with
  | some place => pure (.ofNat place)
  | none => pure (.ofInt (-1))

def includes : Builtin := fun this args => do
  let w ← get
  pure (.bool ((itemsOf w this).any (w.equal · (argument args 0))))

def join : Builtin := fun this args => do
  let w ← get
  let separator :=
    if (argument args 0).isUndefined then "," else w.display (argument args 0)
  let shown := (itemsOf w this).map fun item => if item.isNullish then "" else w.display item
  pure (.str (separator.intercalate shown))

def concat : Builtin := fun this args => do
  let w ← get
  newSeq (itemsOf w this ++ args.flatMap fun arg =>
    match arg with
    | .seq r => w.items r
    | other => [other])

def find? : String → Option Builtin
  | "push" => some push
  | "pop" => some pop
  | "slice" => some slice
  | "indexOf" => some indexOf
  | "includes" => some includes
  | "join" => some join
  | "reverse" => some reverse
  | "concat" => some concat
  | _ => none

end Accessors.SequenceMethod
