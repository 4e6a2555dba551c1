/-! The binary operators that an instruction can name, and their symbols. -/

namespace Accessors

inductive Operator where
  | add
  | reverseAdd
  | sub
  | mul
  | pow
  | div
  | floorDiv
  | rem
  | or
  | and
deriving DecidableEq

namespace Operator

def all : List Operator :=
  [add, reverseAdd, sub, mul, pow, div, floorDiv, rem, or, and]

def symbol : Operator → String
  | add => "+"
  | reverseAdd => "r+"
  | sub => "-"
  | mul => "*"
  | pow => "**"
  | div => "/"
  | floorDiv => "//"
  | rem => "%"
  | or => "||"
  | and => "&&"

def name : Operator → String
  | add => "Add"
  | reverseAdd => "ReverseAdd"
  | sub => "Sub"
  | mul => "Mul"
  | pow => "Pow"
  | div => "Div"
  | floorDiv => "FloorDiv"
  | rem => "Rem"
  | or => "Or"
  | and => "And"

def ofSymbol? (symbol : String) : Option Operator :=
  all.find? (·.symbol = symbol)

theorem ofSymbol?_symbol (op : Operator) : ofSymbol? op.symbol = some op := by
  cases op <;> decide

theorem ofSymbol?_eq_some {s : String} {op : Operator} :
    ofSymbol? s = some op ↔ op.symbol = s := by
  constructor
  · intro h
    simpa using List.find?_some h
  · rintro rfl
    exact ofSymbol?_symbol op

end Operator

end Accessors
