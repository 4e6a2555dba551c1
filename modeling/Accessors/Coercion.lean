import Accessors.Calendar.Written
import Accessors.Number.Notation
import Accessors.Number.Reading
import Accessors.World

/-! Coercion of values to text and to numbers, at one moment of the world. Handles are
followed only as far as the answer needs them: a record shows without its fields, and a
sequence of several items is no number whatever they are. Following stops after as many
levels as there are objects, so that it has an end. A value that does not contain itself has
been followed to its ends by then, and any more levels show the same; of one that does, what is
said at the last level is no answer of the program, whose following has no such limit and never
comes back. -/

namespace Accessors.World

/-- How many levels of a value are followed. -/
def levels (w : World) : Nat :=
  w.objects.size

/-- The display form, the given number of levels down. Items of a sequence are joined with
commas, and what is undefined or null inside one shows as nothing. -/
def displayWithin (w : World) (levels : Nat) (v : Value) : String :=
  match v with
  | .undefined => "undefined"
  | .null => "null"
  | .bool b => if b then "true" else "false"
  | .number n => Number.display n
  | .str s => s
  | .record _ => "[object Object]"
  | .date r => (w.moment r).display
  | .entity r => "[object " ++ (w.typeOf r).name ++ "]"
  | .seq r =>
    match levels with
    | 0 => ""
    | levels + 1 =>
      ",".intercalate ((w.items r).map fun item =>
        if item.isNullish then "" else w.displayWithin levels item)

def display (w : World) (v : Value) : String :=
  w.displayWithin w.levels v

theorem display_number (w : World) (n : Float) : w.display (.number n) = Number.display n := by
  unfold display displayWithin
  rfl

/-- A text is displayed as itself. -/
theorem display_str (w : World) (s : String) : w.display (.str s) = s := by
  unfold display displayWithin
  rfl

/-- Numeric coercion, the given number of levels down. An empty sequence is zero and one
with a single item coerces as that item; records, entities and longer sequences are no
numbers. -/
def toNumberWithin (w : World) (levels : Nat) (v : Value) : Float :=
  match v with
  | .undefined | .record _ | .entity _ => Number.nan
  | .null => 0
  | .bool b => if b then 1 else 0
  | .number n => n
  | .str s => Number.ofText s
  | .date r => Number.ofInt (w.moment r).millis
  | .seq r =>
    match levels with
    | 0 => Number.nan
    | levels + 1 =>
      let items := w.sequence r
      match items[0]? with
      | none => 0
      | some first => if items.size = 1 then w.toNumberWithin levels first else Number.nan

def toNumber (w : World) (v : Value) : Float :=
  w.toNumberWithin w.levels v

end Accessors.World
