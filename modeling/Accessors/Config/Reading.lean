import Accessors.Config

/-! Reading a configuration from JSON text. The fields are all optional and come as an
object, each at most once, or in order as an array. Only the values that a configuration
can hold are read: booleans, null, strings and objects of strings. Every scanner returns
what is left of the text, and that it is no longer than before is what ends the loops. -/

namespace Accessors.Config

def isSpace (c : Char) : Bool :=
  c = ' ' || c = '\t' || c = '\n' || c = '\x0d'

def skipSpace (s : List Char) : List Char :=
  s.dropWhile isSpace

/-- The text after an expected mark, blanks before it skipped. -/
def expect? (mark : Char) (s : List Char) : Option (List Char) :=
  match skipSpace s with
  | c :: rest => if c = mark then some rest else none
  | [] => none

/-- The text after an expected word, blanks before it skipped. -/
def word? (word : List Char) (s : List Char) : Option (List Char) :=
  if word.isPrefixOf (skipSpace s) then some ((skipSpace s).drop word.length) else none

def hexValue? (c : Char) : Option Nat :=
  if '0' ≤ c ∧ c ≤ '9' then some (c.toNat - '0'.toNat)
  else if 'a' ≤ c ∧ c ≤ 'f' then some (c.toNat - 'a'.toNat + 10)
  else if 'A' ≤ c ∧ c ≤ 'F' then some (c.toNat - 'A'.toNat + 10)
  else none

/-- The value of four hexadecimal digits. -/
def unit? (a b c d : Char) : Option Nat := do
  return ((← hexValue? a) * 16 + (← hexValue? b)) * 256 +
    (← hexValue? c) * 16 + (← hexValue? d)

def escaped? : Char → Option Char
  | '"' => some '"'
  | '\\' => some '\\'
  | '/' => some '/'
  | 'b' => some '\x08'
  | 'f' => some '\x0c'
  | 'n' => some '\n'
  | 'r' => some '\x0d'
  | 't' => some '\t'
  | _ => none

/-- Whether a 16-bit unit is the first or the second of a pair. -/
def isHighUnit (n : Nat) : Bool :=
  decide (0xd800 ≤ n ∧ n < 0xdc00)

def isLowUnit (n : Nat) : Bool :=
  decide (0xdc00 ≤ n ∧ n < 0xe000)

/-- The rest of a string after its opening quote: the characters read and what follows the
closing quote. Units that form no pair are refused. -/
def stringBody? : List Char → Option (List Char × List Char)
  | [] => none
  | '"' :: rest => some ([], rest)
  | '\\' :: 'u' :: a :: b :: c :: d :: rest =>
    match unit? a b c d with
    | none => none
    | some n =>
      if isLowUnit n then none
      else if isHighUnit n then
        match rest with
        | '\\' :: 'u' :: p :: q :: r :: s :: rest =>
          match unit? p q r s with
          | none => none
          | some m =>
            if isLowUnit m then
              (stringBody? rest).map fun (read, left) =>
                (Char.ofNat (0x10000 + (n - 0xd800) * 0x400 + (m - 0xdc00)) :: read, left)
            else none
        | _ => none
      else
        (stringBody? rest).map fun (read, left) => (Char.ofNat n :: read, left)
  | '\\' :: e :: rest =>
    match escaped? e with
    | some c => (stringBody? rest).map fun (read, left) => (c :: read, left)
    | none => none
  | c :: rest =>
    if c = '\\' ∨ c.toNat < 32 then none
    else (stringBody? rest).map fun (read, left) => (c :: read, left)

def string? (s : List Char) : Option (String × List Char) := do
  let (read, left) ← stringBody? (← expect? '"' s)
  return (String.ofList read, left)

def bool? (s : List Char) : Option (Bool × List Char) :=
  match word? "true".toList s, word? "false".toList s with
  | some rest, _ => some (true, rest)
  | none, some rest => some (false, rest)
  | none, none => none

def level? (s : List Char) : Option (Option String × List Char) :=
  match word? "null".toList s with
  | some rest => some (none, rest)
  | none => (string? s).map fun (name, rest) => (some name, rest)

/-- The members of an object of strings from a member on; `fuel` is more than their
number. A repeated key takes the last value. -/
def filterMembers? : (fuel : Nat) → Table String → List Char → Option (Table String × List Char)
  | 0, _, _ => none
  | fuel + 1, table, s => do
    let (key, s) ← string? s
    let (value, s) ← string? (← expect? ':' s)
    let table := table.insert key value
    match expect? ',' s with
    | some rest => filterMembers? fuel table rest
    | none => return (table, ← expect? '\x7d' s)

def filters? (s : List Char) : Option (Table String × List Char) := do
  let s ← expect? '\x7b' s
  match expect? '\x7d' s with
  | some rest => return (.empty, rest)
  | none => filterMembers? s.length .empty s

/-- What has been read of a configuration. -/
structure Draft where
  strict : Option Bool
  logLevel : Option (Option String)
  moduleFilters : Option (Table String)

def Draft.empty : Draft := ⟨none, none, none⟩

def Draft.config (d : Draft) : Config :=
  ⟨d.strict.getD false, d.logLevel.getD none, d.moduleFilters.getD .empty⟩

/-- Reads the value of a field that has not been read before. -/
def field? (d : Draft) (key : String) (s : List Char) : Option (Draft × List Char) :=
  match key with
  | "strict" =>
    if d.strict.isSome then none
    else (bool? s).map fun (v, rest) => ({ d with strict := some v }, rest)
  | "log_level" =>
    if d.logLevel.isSome then none
    else (level? s).map fun (v, rest) => ({ d with logLevel := some v }, rest)
  | "module_filters" =>
    if d.moduleFilters.isSome then none
    else (filters? s).map fun (v, rest) => ({ d with moduleFilters := some v }, rest)
  | _ => none

def members? : (fuel : Nat) → Draft → List Char → Option (Draft × List Char)
  | 0, _, _ => none
  | fuel + 1, d, s => do
    let (key, s) ← string? s
    let (d, s) ← field? d key (← expect? ':' s)
    match expect? ',' s with
    | some rest => members? fuel d rest
    | none => return (d, ← expect? '\x7d' s)

def object? (s : List Char) : Option (Draft × List Char) := do
  let s ← expect? '\x7b' s
  match expect? '\x7d' s with
  | some rest => return (.empty, rest)
  | none => members? 4 .empty s

/-- The elements of an array, which are the fields in order. -/
def elements? (d : Draft) : List String → List Char → Option (Draft × List Char)
  | [], s => return (d, ← expect? ']' s)
  | key :: keys, s => do
    let (d, s) ← field? d key s
    match expect? ']' s with
    | some rest => return (d, rest)
    | none =>
      if keys = [] then none else elements? d keys (← expect? ',' s)

def array? (s : List Char) : Option (Draft × List Char) := do
  let s ← expect? '[' s
  match expect? ']' s with
  | some rest => return (.empty, rest)
  | none => elements? .empty ["strict", "log_level", "module_filters"] s

/-- The configuration a JSON text stands for. -/
def read (text : String) : Except Error Config :=
  let s := text.toList
  match (object? s).or (array? s) with
  | some (d, rest) => if skipSpace rest = [] then .ok d.config else .error .json
  | none => .error .json

end Accessors.Config
