import Accessors.World

/-! Configuration of the host: strict mode, a log level and module filters. Applying a
configuration reads every level name before anything changes, so that a bad name leaves
everything as it was. -/

namespace Accessors

structure Config where
  strict : Bool
  logLevel : Option String
  moduleFilters : Table String

namespace Config

def initial : Config := ⟨false, none, .empty⟩

/-- The filters in the order of their modules. -/
def sortedFilters (c : Config) : List (String × String) :=
  c.moduleFilters.entries.mergeSort fun a b => decide (a.1 ≤ b.1)

def readFilters : List (String × String) → Except Error (List (String × Level))
  | [] => .ok []
  | (path, name) :: rest => do
    let level ← Level.read name
    return (path, level) :: (← readFilters rest)

def readLevel (c : Config) : Except Error (Option Level) :=
  match c.logLevel with
  | some name => some <$> Level.read name
  | none => .ok none

def apply (c : Config) : Action Unit := do
  let level ← ofExcept c.readLevel
  let filters ← ofExcept (readFilters c.sortedFilters)
  modify fun w =>
    let logging := (level.map w.logging.setLevel).getD w.logging
    { w with
      channel := { w.channel with strict := c.strict }
      logging := if filters.isEmpty then logging else logging.setFilters filters }

end Config

end Accessors
