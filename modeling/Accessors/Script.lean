import Accessors.Calendar.Moment
import Accessors.Error
import Accessors.Operator

/-! Scripts: the bodies of getters, setters, methods, operator overrides and initializers.
A script is an expression over its receiver and its arguments. Literals are recipes, not
values: each evaluation of one makes new objects. -/

namespace Accessors

inductive Literal where
  | undefined
  | null
  | bool (b : Bool)
  | number (n : Float)
  | str (s : String)
  | seq (items : List Literal)
  | record (entries : List (String × Literal))
  | date (moment : Calendar.Moment)
  | variable (name : String)
deriving Inhabited

inductive Script where
  | this
  | argument (i : Nat)
  | arguments
  | literal (l : Literal)
  | variable (name : String)
  | call (on : Script) (name : String) (args : List Script)
  | operate (op : Operator) (lhs rhs : Script)
  | field (on : Script) (name : String)
  | setField (on : Script) (name : String) (value : Script)
  | block (steps : List Script)
  | list (items : List Script)
  | choose (test yes no : Script)
  | toNumber (of : Script)
  | toText (of : Script)
  | construct (typeName : String) (args : List Script)
  | report (report : Report)
  | fail (error : Error)
deriving Inhabited

end Accessors
