import Accessors.Error
import Accessors.Table
import Accessors.Text.Blank
import Accessors.Text.Search

/-! Log levels and module filters. A filter applies to the targets that continue its
module path; of several the longest decides, and the global level decides elsewhere. A
change takes effect when every filter has a valid module path; otherwise what was in
effect before goes on deciding, under the new global level. -/

namespace Accessors

inductive Level where
  | off
  | error
  | warn
  | info
  | debug
  | trace
deriving DecidableEq

namespace Level

def all : List Level := [off, error, warn, info, debug, trace]

def name : Level → String
  | off => "OFF"
  | error => "ERROR"
  | warn => "WARN"
  | info => "INFO"
  | debug => "DEBUG"
  | trace => "TRACE"

def rank : Level → Nat
  | off => 0
  | error => 1
  | warn => 2
  | info => 3
  | debug => 4
  | trace => 5

def upperAscii (c : Char) : Char :=
  if 'a' ≤ c ∧ c ≤ 'z' then Char.ofNat (c.toNat - 32) else c

/-- Reads a level name in any case, blanks around it ignored. -/
def read (text : String) : Except Error Level :=
  let s := (Text.trim text.toList).map upperAscii
  match all.find? (·.name.toList = s) with
  | some level => .ok level
  | none => .error (.other ("Invalid log level: " ++ text))

def greatest (a b : Level) : Level :=
  if a.rank < b.rank then b else a

end Level

abbrev Filters := Table Level

/-- The segments of a module path, which double colons separate. -/
def pathSegments (path : String) : List (List Char) :=
  Text.split ':' [':'] path.toList

/-- Colons come in pairs and do not end the path. `streak` counts the colons just read. -/
def validPathFrom : (streak : Nat) → List Char → Bool
  | streak, [] => streak = 0
  | streak, c :: rest =>
    if c = ':' then decide (streak < 2) && validPathFrom (streak + 1) rest
    else decide (streak = 0 ∨ streak = 2) && validPathFrom 0 rest

def validPath (path : String) : Bool :=
  path != "" && validPathFrom 0 path.toList

structure Logging where
  level : Level
  filters : Filters
  activeLevel : Level
  activeFilters : Filters
  maxLevel : Level

namespace Logging

def initial : Logging := ⟨.off, .empty, .off, .empty, .off⟩

/-- Puts the level and the filters into effect. -/
def install (l : Logging) : Logging :=
  if l.filters.keys.all validPath then
    { l with
      activeLevel := l.level
      activeFilters := l.filters
      maxLevel := l.filters.values.foldl Level.greatest l.level }
  else
    { l with maxLevel := l.level }

def setLevel (l : Logging) (level : Level) : Logging :=
  { l with level }.install

/-- Sets filters; nothing is installed when all of them were in place. -/
def setFilters (l : Logging) (filters : List (String × Level)) : Logging :=
  let merged := filters.foldl (fun table filter => table.insert filter.1 filter.2) l.filters
  let changed := (filters.foldl
    (fun state filter =>
      (state.1 || state.2.get? filter.1 != some filter.2, state.2.insert filter.1 filter.2))
    (false, l.filters)).1
  if changed then { l with filters := merged }.install else l

def removeFilter (l : Logging) (path : String) : Logging :=
  if l.filters.has path then { l with filters := l.filters.erase path }.install else l

/-- The level in force for a target. -/
def levelFor (l : Logging) (target : String) : Level :=
  let segments := pathSegments target
  let matching := l.activeFilters.entries.filter fun filter =>
    (pathSegments filter.1).isPrefixOf segments
  let longest := matching.foldl
    (fun best filter =>
      if best.1 ≤ (pathSegments filter.1).length then ((pathSegments filter.1).length, filter.2)
      else best)
    (0, l.activeLevel)
  longest.2

def isEnabled (l : Logging) (target : String) (level : Level) : Bool :=
  decide (level.rank ≤ l.maxLevel.rank ∧ level.rank ≤ (l.levelFor target).rank)

/-- The levels of messages that pass for a target. -/
def enabledLevels (l : Logging) (target : String) : List Level :=
  (Level.all.drop 1).filter (l.isEnabled target)

end Logging

end Accessors
