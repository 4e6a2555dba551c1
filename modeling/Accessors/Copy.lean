import Accessors.Coercion

/-! Copies of values. A shallow copy is a new object with the same items; a deep copy is
new down to the scalars. Entities are never copied. The limit of levels is that of coercion: only
within a value that contains itself is it met, and what stands there then is no copy. -/

namespace Accessors

def shallowCopy (v : Value) : Action Value := do
  let w ← get
  match v with
  | .seq r => newSeq (w.items r)
  | .record r => newRecord (w.fields r)
  | .date r => newDate (w.moment r)
  | _ => pure v

/-- A deep copy, the given number of levels down. -/
def deepCopyWithin (levels : Nat) (v : Value) : Action Value := do
  let w ← get
  match v with
  | .date r => newDate (w.moment r)
  | .seq r =>
    match levels with
    | 0 => pure .undefined
    | levels + 1 => do newSeq (← (w.items r).mapM fun item => deepCopyWithin levels item)
  | .record r =>
    match levels with
    | 0 => pure .undefined
    | levels + 1 => do
      let entries ← (w.fields r).entries.mapM fun entry => do
        return (entry.1, ← deepCopyWithin levels entry.2)
      newRecord (Table.ofList entries)
  | _ => pure v

def deepCopy (v : Value) : Action Value := do
  deepCopyWithin (← get).levels v

def ClonePolicy.apply (policy : ClonePolicy) (v : Value) : Action Value :=
  match policy with
  | identity => pure v
  | shallow => shallowCopy v
  | deep => deepCopy v

end Accessors
