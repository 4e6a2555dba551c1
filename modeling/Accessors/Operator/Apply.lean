import Accessors.Coercion

/-! The built-in meaning of the operators. Addition concatenates display forms as soon as
one side is text or an object; the logical operators return one of their operands; all
others work on numbers. -/

namespace Accessors

/-- Whether a value makes an addition a concatenation. -/
def Value.isTextual : Value → Bool
  | .str _ | .seq _ | .record _ | .date _ | .entity _ => true
  | _ => false

def World.add (w : World) (lhs rhs : Value) : Value :=
  if lhs.isTextual || rhs.isTextual then .str (w.display lhs ++ w.display rhs)
  else .number (w.toNumber lhs + w.toNumber rhs)

def Operator.apply (op : Operator) (w : World) (lhs rhs : Value) : Value :=
  match op with
  | add => w.add lhs rhs
  | reverseAdd => w.add rhs lhs
  | sub => .number (w.toNumber lhs - w.toNumber rhs)
  | mul => .number (w.toNumber lhs * w.toNumber rhs)
  | pow => .number ((w.toNumber lhs).pow (w.toNumber rhs))
  | div => .number (w.toNumber lhs / w.toNumber rhs)
  | floorDiv => .number (Number.floor (w.toNumber lhs / w.toNumber rhs))
  | rem => .number (Number.remainder (w.toNumber lhs) (w.toNumber rhs))
  | or => if lhs.isTruthy then lhs else rhs
  | and => if lhs.isTruthy then rhs else lhs

end Accessors
