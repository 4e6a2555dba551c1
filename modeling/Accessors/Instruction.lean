import Accessors.Operator
import Accessors.Text.Alphanumeric
import Accessors.Text.Case

/-! The grammar of instructions. A text key is a method call after `#`, a literal after
`##`, an operator symbol, or any other key; methods and operators end in `=` when the
result is to be written. -/

namespace Accessors

def isSeparator (c : Char) : Bool :=
  c = ' ' || c = '_' || c = '-'

def isWordChar (c : Char) : Bool :=
  Text.isAlphanumeric c || c = '_'

/-- Camel case of a list of characters: a separator and the word character after it
become that character in upper case. -/
def camelChars : List Char → List Char
  | [] => []
  | [c] => [c]
  | c :: next :: rest =>
    if isSeparator c && isWordChar next then Text.upperChar next ++ camelChars rest
    else c :: camelChars (next :: rest)

def camel (name : String) : String :=
  String.ofList (camelChars name.toList)

inductive Instruction where
  | method (name : String) (assign : Bool)
  | literal (text : String)
  | operator (op : Operator) (assign : Bool)
  | key (text : String)
deriving DecidableEq

/-- Splits off a final `=`. -/
def stripAssignment (s : List Char) : List Char × Bool :=
  match s.reverse with
  | '=' :: front => (front.reverse, true)
  | _ => (s, false)

def Instruction.parse (text : String) : Instruction :=
  match text.toList with
  | '#' :: '#' :: rest => .literal (String.ofList ('#' :: rest))
  | '#' :: rest =>
    let (name, assign) := stripAssignment (camelChars rest)
    .method (String.ofList name) assign
  | s =>
    let (symbol, assign) := stripAssignment s
    match Operator.ofSymbol? (String.ofList symbol) with
    | some op => .operator op assign
    | none => .key text

theorem stripAssignment_append (s : List Char) : stripAssignment (s ++ ['=']) = (s, true) := by
  simp [stripAssignment]

theorem stripAssignment_self {s : List Char} (h : s.getLast? ≠ some '=') :
    stripAssignment s = (s, false) := by
  unfold stripAssignment
  split
  · rename_i front eq
    have : s = front.reverse ++ ['='] := by
      rw [← List.reverse_reverse s, eq]
      simp
    simp [this] at h
  · rfl

end Accessors
