import Accessors.Coercion

/-! Structural equality. A shared handle is equal to itself whatever it holds, so that
what two values share is never compared; entities are equal only so, and the order of keys
does not matter. The limit of levels is that of coercion: where one of the values does not contain
itself, more levels find the same. -/

namespace Accessors.World

/-- Structural equality, the given number of levels down. -/
def equalWithin (w : World) (levels : Nat) (a b : Value) : Bool :=
  match a, b with
  | .undefined, .undefined | .null, .null => true
  | .bool a, .bool b => a == b
  | .number a, .number b => a == b
  | .str a, .str b => a == b
  | .date r, .date s => decide (w.moment r = w.moment s)
  | .entity r, .entity s => r == s
  | .seq r, .seq s =>
    r == s ||
      match levels with
      | 0 => false
      | levels + 1 =>
        (w.sequence r).size == (w.sequence s).size &&
          (w.items r).isEqv (w.items s) (w.equalWithin levels)
  | .record r, .record s =>
    r == s ||
      match levels with
      | 0 => false
      | levels + 1 =>
        (w.fields r).size == (w.fields s).size &&
          (w.fields r).entries.all fun entry =>
            ((w.fields s).get? entry.1).any (w.equalWithin levels entry.2)
  | _, _ => false

def equal (w : World) (a b : Value) : Bool :=
  w.equalWithin w.levels a b

end Accessors.World
