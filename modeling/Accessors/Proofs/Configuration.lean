import Accessors.Config
import Mathlib.Data.List.Forall2

/-! Applying a configuration is all or nothing. Every level name is read before anything changes, so
one that is no level's leaves the world as it was, whichever entry it belongs to; otherwise strict
mode, the level and the filters are what the configuration says, and what it does not mention stays.
A level is put into effect again each time and filters only when one of them is new, but what is in
effect is made of the level and the filters alone, so that a second time makes no difference. Main
statement: `applying_all_or_nothing`. -/

namespace Accessors

def IsCaseOf (capital c : Char) : Prop :=
  c = capital ∨ c.toNat = capital.toNat + 32

/-- A text that is the name of a level in any case, with blanks around it or not. -/
def Level.Spells (level : Level) (text : String) : Prop :=
  List.Forall₂ IsCaseOf level.name.toList (Text.trim text.toList)

namespace Level
variable {text : String} {level : Level}

theorem upperAscii_eq_iff {capital c : Char} (isCapital : 65 ≤ capital.toNat ∧ capital.toNat ≤ 90) :
    upperAscii c = capital ↔ IsCaseOf capital c := by
  have le (d d' : Char) : d ≤ d' ↔ d.toNat ≤ d'.toNat := UInt32.le_iff_toNat_le
  unfold upperAscii IsCaseOf
  simp only [le, Char.reduceToNat]
  split
  · rename_i small
    have raised : (Char.ofNat (c.toNat - 32)).toNat = c.toNat - 32 := by
      have valid : (c.toNat - 32).isValidChar := .inl (by omega)
      rw [Char.ofNat, dif_pos valid]
      rfl
    constructor
    · rintro rfl
      omega
    · rintro (rfl | raise)
      · omega
      · refine Char.toNat_inj.mp ?_
        omega
  · constructor
    · exact .inl
    · rintro (same | raise)
      · exact same
      · omega

theorem name_capital (level : Level) : ∀ c ∈ level.name.toList, 65 ≤ c.toNat ∧ c.toNat ≤ 90 := by
  have all : level.name.toList.all (fun c => 65 ≤ c.toNat ∧ c.toNat ≤ 90) = true := by
    cases level <;> decide
  intro c mem
  exact of_decide_eq_true (List.all_eq_true.mp all c mem)

theorem map_upperAscii_eq_iff {name s : List Char}
    (capital : ∀ c ∈ name, 65 ≤ c.toNat ∧ c.toNat ≤ 90) :
    s.map upperAscii = name ↔ List.Forall₂ IsCaseOf name s := by
  induction name generalizing s with
  | nil => simp
  | cons letter name ih =>
    cases s with
    | nil => simp
    | cons c s =>
      rw [List.map_cons, List.cons.injEq, List.forall₂_cons,
        upperAscii_eq_iff (capital letter List.mem_cons_self),
        ih fun c mem => capital c (List.mem_cons_of_mem _ mem)]

theorem mem_all (level : Level) : level ∈ all := by
  cases level <;> decide

theorem name_injective {a b : Level} (same : a.name.toList = b.name.toList) : a = b := by
  revert same
  cases a <;> cases b <;> decide

theorem read_eq_ok : read text = .ok level ↔ level.Spells text := by
  have found : all.find? (·.name.toList = (Text.trim text.toList).map upperAscii) = some level ↔
      level.Spells text := by
    unfold Spells
    rw [← map_upperAscii_eq_iff level.name_capital]
    constructor
    · intro found
      have same := List.find?_some found
      exact (of_decide_eq_true same).symm
    · intro spelled
      cases first : all.find? (·.name.toList = (Text.trim text.toList).map upperAscii) with
      | none =>
        refine absurd spelled.symm ?_
        simpa using List.find?_eq_none.mp first level level.mem_all
      | some other =>
        have same := List.find?_some first
        rw [name_injective ((of_decide_eq_true same).trans spelled)]
  unfold read
  dsimp only
  rw [← found]
  split <;> simp [*]

theorem Spells.unique {other : Level} (spelled : level.Spells text) (spelled' : other.Spells text) :
    level = other :=
  Except.ok.inj ((read_eq_ok.mpr spelled).symm.trans (read_eq_ok.mpr spelled'))

def refusal (text : String) : Error :=
  .other ("Invalid log level: " ++ text)

theorem read_cases (text : String) :
    (∃ level : Level, level.Spells text ∧ read text = .ok level) ∨
      (∀ level : Level, ¬ level.Spells text) ∧ read text = .error (refusal text) := by
  cases ends : read text with
  | ok level => exact .inl ⟨level, read_eq_ok.mp ends, rfl⟩
  | error e =>
    refine .inr ⟨fun level spelled => ?_, ?_⟩
    · rw [read_eq_ok.mpr spelled] at ends
      cases ends
    · unfold read at ends
      dsimp only at ends
      split at ends
      · cases ends
      · exact ends.symm

end Level

namespace Logging
variable {l : Logging}

theorem install_level (l : Logging) : l.install.level = l.level := by
  unfold install
  split <;> rfl

theorem install_filters (l : Logging) : l.install.filters = l.filters := by
  unfold install
  split <;> rfl

theorem install_install (l : Logging) : l.install.install = l.install := by
  unfold install
  split <;> simp [*]

def override (filters : List (String × Level)) (table : Filters) : Filters :=
  filters.foldl (fun table filter => table.insert filter.1 filter.2) table

def InPlace (filters : List (String × Level)) (table : Filters) : Prop :=
  ∀ filter ∈ filters, table.get? filter.1 = some filter.2

section
variable {filters : List (String × Level)} {table : Filters} {path : String}

theorem unchanged_iff {changed : Bool} :
    (filters.foldl
      (fun state filter =>
        (state.1 || state.2.get? filter.1 != some filter.2, state.2.insert filter.1 filter.2))
      (changed, table)).1 = false ↔ changed = false ∧ InPlace filters table := by
  induction filters generalizing changed table with
  | nil => exact (and_iff_left fun _ mem => absurd mem List.not_mem_nil).symm
  | cons filter rest ih =>
    rw [List.foldl_cons, ih]
    simp only [InPlace, List.forall_mem_cons, Bool.or_eq_false_iff, bne_eq_false_iff_eq, and_assoc]
    refine and_congr_right fun _ => and_congr_right fun there => ?_
    -- writing a filter that is there hides no change from those after it
    refine forall₂_congr fun other _ => ?_
    rw [Table.get?_insert]
    split
    · rename_i same
      rw [same, there]
    · rfl

theorem setFilters_eq (l : Logging) (filters : List (String × Level)) :
    InPlace filters l.filters ∧ l.setFilters filters = l ∨
      ¬ InPlace filters l.filters ∧
        l.setFilters filters = { l with filters := override filters l.filters }.install := by
  have noticed := @unchanged_iff filters l.filters false
  rw [eq_self_iff_true, true_and] at noticed
  unfold setFilters
  dsimp only
  split
  · rename_i changed
    refine .inr ⟨fun inPlace => ?_, rfl⟩
    rw [noticed.mpr inPlace] at changed
    cases changed
  · rename_i unchanged
    exact .inl ⟨noticed.mp (Bool.eq_false_iff.mpr unchanged), rfl⟩

theorem setFilters_level (l : Logging) (filters : List (String × Level)) :
    (l.setFilters filters).level = l.level := by
  rcases l.setFilters_eq filters with ⟨_, same⟩ | ⟨_, set⟩
  · rw [same]
  · rw [set, install_level]

theorem setFilters_self (inPlace : InPlace filters l.filters) : l.setFilters filters = l := by
  rcases l.setFilters_eq filters with ⟨_, same⟩ | ⟨new, _⟩
  · exact same
  · exact absurd inPlace new

theorem setFilters_installed (installed : l.install = l) :
    (l.setFilters filters).install = l.setFilters filters := by
  rcases l.setFilters_eq filters with ⟨_, same⟩ | ⟨_, set⟩
  · rw [same, installed]
  · rw [set, install_install]

theorem get?_override_of_inPlace (inPlace : InPlace filters table) (path : String) :
    (override filters table).get? path = table.get? path := by
  unfold override
  induction filters generalizing table with
  | nil => rfl
  | cons filter rest ih =>
    have same (other : String) :
        (table.insert filter.1 filter.2).get? other = table.get? other := by
      rw [Table.get?_insert]
      split
      · rename_i same
        rw [same, inPlace filter List.mem_cons_self]
      · rfl
    rw [List.foldl_cons, ih, same]
    intro other mem
    rw [same, inPlace other (List.mem_cons_of_mem _ mem)]

theorem setFilters_filters (l : Logging) (filters : List (String × Level)) (path : String) :
    (l.setFilters filters).filters.get? path = (override filters l.filters).get? path := by
  rcases l.setFilters_eq filters with ⟨inPlace, same⟩ | ⟨_, set⟩
  · rw [same, get?_override_of_inPlace inPlace]
  · rw [set, install_filters]

theorem get?_override_of_absent (absent : path ∉ filters.map Prod.fst) (table : Filters) :
    (override filters table).get? path = table.get? path := by
  induction filters generalizing table with
  | nil => rfl
  | cons filter rest ih =>
    rw [List.map_cons, List.mem_cons, not_or] at absent
    unfold override at ih ⊢
    rw [List.foldl_cons, ih absent.2, Table.get?_insert, if_neg absent.1]

theorem get?_override_of_mem (distinct : (filters.map Prod.fst).Nodup) {level : Level}
    (mem : (path, level) ∈ filters) (table : Filters) :
    (override filters table).get? path = some level := by
  induction filters generalizing table with
  | nil => cases mem
  | cons filter rest ih =>
    rw [List.map_cons, List.nodup_cons] at distinct
    show (override rest (table.insert filter.1 filter.2)).get? path = _
    rcases List.mem_cons.mp mem with rfl | later
    · rw [get?_override_of_absent distinct.1, Table.get?_insert, if_pos rfl]
    · exact ih distinct.2 later _

end

end Logging

namespace Config
variable {c : Config}

def SpellFilters : List (String × Level) → List (String × String) → Prop :=
  List.Forall₂ fun filter entry => filter.1 = entry.1 ∧ filter.2.Spells entry.2

/-- A level name of a configuration: the global one, or that of a module. -/
inductive Names (c : Config) : String → Prop
  | level {text : String} (given : c.logLevel = some text) : Names c text
  | filter {path text : String} (given : c.moduleFilters.get? path = some text) : Names c text

def Valid (c : Config) : Prop :=
  ∀ text, c.Names text → ∃ level : Level, level.Spells text

def InPlace (c : Config) (table : Filters) : Prop :=
  ∀ path text, c.moduleFilters.get? path = some text →
    ∃ level : Level, level.Spells text ∧ table.get? path = some level

theorem mem_sortedFilters {path text : String} :
    (path, text) ∈ c.sortedFilters ↔ c.moduleFilters.get? path = some text := by
  unfold sortedFilters
  rw [List.mem_mergeSort]
  constructor
  · exact Table.get?_of_mem
  · intro given
    rw [Table.get?_eq] at given
    obtain ⟨before, after, split, _⟩ := List.lookup_eq_some_iff.mp given
    rw [split]
    exact List.mem_append_right before List.mem_cons_self

theorem sortedFilters_distinct (c : Config) : (c.sortedFilters.map Prod.fst).Nodup := by
  unfold sortedFilters
  have same := List.mergeSort_perm c.moduleFilters.entries fun a b => decide (a.1 ≤ b.1)
  exact (same.map Prod.fst).nodup_iff.mpr c.moduleFilters.keys_nodup

theorem readFilters_cons (path text : String) (rest : List (String × String)) :
    readFilters ((path, text) :: rest) =
      (Level.read text).bind fun level => (readFilters rest).map ((path, level) :: ·) := by
  rw [readFilters]
  cases Level.read text with
  | error e => rfl
  | ok level =>
    cases readFilters rest with
    | error e => rfl
    | ok filters => rfl

theorem readFilters_cases (entries : List (String × String)) :
    (∃ filters, SpellFilters filters entries ∧ readFilters entries = .ok filters) ∨
      ∃ entry ∈ entries, (∀ level : Level, ¬ level.Spells entry.2) ∧
        readFilters entries = .error (Level.refusal entry.2) := by
  induction entries with
  | nil => exact .inl ⟨[], .nil, rfl⟩
  | cons entry rest ih =>
    obtain ⟨path, text⟩ := entry
    rw [readFilters_cons]
    rcases Level.read_cases text with ⟨level, spelled, read⟩ | ⟨none, refused⟩
    · rw [read]
      rcases ih with ⟨filters, spell, ends⟩ | ⟨entry, mem, none, ends⟩
      · rw [ends]
        exact .inl ⟨(path, level) :: filters, .cons ⟨rfl, spelled⟩ spell, rfl⟩
      · rw [ends]
        exact .inr ⟨entry, List.mem_cons_of_mem _ mem, none, rfl⟩
    · rw [refused]
      exact .inr ⟨(path, text), List.mem_cons_self, none, rfl⟩

theorem readLevel_cases (c : Config) :
    (∃ level, Option.Rel Level.Spells level c.logLevel ∧ c.readLevel = .ok level) ∨
      ∃ text, c.logLevel = some text ∧ (∀ level : Level, ¬ level.Spells text) ∧
        c.readLevel = .error (Level.refusal text) := by
  cases given : c.logLevel with
  | none =>
    have unread : c.readLevel = .ok none := by
      unfold readLevel
      rw [given]
    exact .inl ⟨none, .none, unread⟩
  | some text =>
    have reads : c.readLevel = (Level.read text).map some := by
      unfold readLevel
      rw [given]
      rfl
    rw [reads]
    rcases Level.read_cases text with ⟨level, spelled, read⟩ | ⟨none, refused⟩
    · rw [read]
      exact .inl ⟨some level, .some spelled, rfl⟩
    · rw [refused]
      exact .inr ⟨text, rfl, none, rfl⟩

def configure (level : Option Level) (filters : List (String × Level)) (l : Logging) : Logging :=
  let logging := (level.map l.setLevel).getD l
  if filters.isEmpty then logging else logging.setFilters filters

theorem apply_run {level : Option Level} {filters : List (String × Level)}
    (readLevel : c.readLevel = .ok level) (readFilters : readFilters c.sortedFilters = .ok filters)
    (w : World) : c.apply.run w = .ok () { w with
      channel := { w.channel with strict := c.strict }
      logging := configure level filters w.logging } := by
  unfold apply
  rw [readLevel, readFilters]
  rfl

theorem apply_refused {text : String} (refused : c.readLevel = .error (Level.refusal text) ∨
      ∃ level, c.readLevel = .ok level ∧ readFilters c.sortedFilters = .error (Level.refusal text))
    (w : World) : c.apply.run w = .error (.error (Level.refusal text)) w := by
  unfold apply
  rcases refused with level | ⟨_, level, filters⟩
  · rw [level]
    rfl
  · rw [level, filters]
    rfl

section
variable {level : Option Level} {filters : List (String × Level)} {l : Logging}

theorem configure_eq (level : Option Level) (filters : List (String × Level)) (l : Logging) :
    configure level filters l = ((level.map l.setLevel).getD l).setFilters filters := by
  cases filters with
  | nil => rfl
  | cons filter rest => rfl

theorem configure_level (level : Option Level) (filters : List (String × Level)) (l : Logging) :
    (configure level filters l).level = level.getD l.level := by
  rw [configure_eq, Logging.setFilters_level]
  cases level with
  | none => rfl
  | some level => exact Logging.install_level _

theorem leveled_filters (level : Option Level) (l : Logging) :
    ((level.map l.setLevel).getD l).filters = l.filters := by
  cases level with
  | none => rfl
  | some level => exact Logging.install_filters _

theorem configure_filters (level : Option Level) (filters : List (String × Level)) (l : Logging)
    (path : String) : (configure level filters l).filters.get? path =
      (Logging.override filters l.filters).get? path := by
  rw [configure_eq, Logging.setFilters_filters, leveled_filters]

theorem configure_of_inPlace (level : Option Level) (inPlace : Logging.InPlace filters l.filters) :
    configure level filters l = (level.map l.setLevel).getD l := by
  rw [configure_eq]
  refine Logging.setFilters_self ?_
  rwa [leveled_filters]

theorem configure_of_new (level : Option Level) (new : ¬ Logging.InPlace filters l.filters) :
    configure level filters l = { (level.map l.setLevel).getD l with
      filters := (configure level filters l).filters }.install := by
  rw [configure_eq]
  rcases ((level.map l.setLevel).getD l).setFilters_eq filters with ⟨inPlace, _⟩ | ⟨_, set⟩
  · rw [leveled_filters] at inPlace
    exact absurd inPlace new
  · rw [set, Logging.install_filters]

theorem configure_self (level : Option Level) (inPlace : Logging.InPlace filters l.filters)
    (same : ∀ given, level = some given → l.level = given ∧ l.install = l) :
    configure level filters l = l := by
  rw [configure_of_inPlace level inPlace]
  cases level with
  | none => rfl
  | some given =>
    obtain ⟨rfl, installed⟩ := same given rfl
    exact installed

end

end Config

/-- Strict mode, the level and the filters are those of a configuration where it has any, and else
as before, like the rest. A level that is given is put into effect, and then all filters if one is
new; what is in effect is not touched otherwise. -/
structure Config.Applied (c : Config) (w w' : World) : Prop where
  level : ∃ level, Option.Rel Level.Spells level c.logLevel ∧
    w'.logging.level = level.getD w.logging.level
  filters : ∀ path, ∃ level, Option.Rel Level.Spells level (c.moduleFilters.get? path) ∧
    w'.logging.filters.get? path = level.or (w.logging.filters.get? path)
  effect : ∃ level, Option.Rel Level.Spells level c.logLevel ∧
    let given := (level.map w.logging.setLevel).getD w.logging
    (c.InPlace w.logging.filters → w'.logging = given) ∧
      (¬ c.InPlace w.logging.filters →
        w'.logging = { given with filters := w'.logging.filters }.install)
  rest : w' = { w with
    channel := { w.channel with strict := c.strict }
    logging := w'.logging }

namespace Config
variable {c : Config} {level : Option Level} {filters : List (String × Level)}
variable {entries : List (String × String)}

theorem SpellFilters.paths (spell : SpellFilters filters entries) :
    filters.map Prod.fst = entries.map Prod.fst := by
  induction spell with
  | nil => rfl
  | cons same _ ih => rw [List.map_cons, List.map_cons, same.1, ih]

theorem SpellFilters.of_mem (spell : SpellFilters filters entries) {entry : String × String}
    (mem : entry ∈ entries) :
    ∃ level : Level, level.Spells entry.2 ∧ (entry.1, level) ∈ filters := by
  induction spell with
  | nil => cases mem
  | @cons filter _ _ _ same _ ih =>
    rcases List.mem_cons.mp mem with rfl | later
    · refine ⟨filter.2, same.2, ?_⟩
      rw [← same.1]
      exact List.mem_cons_self
    · obtain ⟨level, spelled, there⟩ := ih later
      exact ⟨level, spelled, List.mem_cons_of_mem _ there⟩

theorem SpellFilters.entry_of_mem (spell : SpellFilters filters entries)
    {filter : String × Level} (mem : filter ∈ filters) :
    ∃ entry ∈ entries, filter.1 = entry.1 ∧ filter.2.Spells entry.2 := by
  induction spell with
  | nil => cases mem
  | @cons _ entry _ _ same _ ih =>
    rcases List.mem_cons.mp mem with rfl | later
    · exact ⟨entry, List.mem_cons_self, same⟩
    · obtain ⟨entry, listed, same⟩ := ih later
      exact ⟨entry, List.mem_cons_of_mem _ listed, same⟩

theorem inPlace_iff (spell : SpellFilters filters c.sortedFilters) {table : Filters} :
    Logging.InPlace filters table ↔ c.InPlace table := by
  constructor
  · intro inPlace path text given
    obtain ⟨level, spelled, mem⟩ := spell.of_mem (mem_sortedFilters.mpr given)
    exact ⟨level, spelled, inPlace _ mem⟩
  · intro inPlace filter mem
    obtain ⟨⟨path, text⟩, listed, rfl, spelled⟩ := spell.entry_of_mem mem
    obtain ⟨level, spelled', there⟩ := inPlace _ text (mem_sortedFilters.mp listed)
    rw [there, spelled.unique spelled']

theorem override_spelled (spell : SpellFilters filters c.sortedFilters) (table : Filters)
    (path : String) : ∃ level, Option.Rel Level.Spells level (c.moduleFilters.get? path) ∧
      (Logging.override filters table).get? path = level.or (table.get? path) := by
  have distinct : (filters.map Prod.fst).Nodup := spell.paths ▸ c.sortedFilters_distinct
  cases given : c.moduleFilters.get? path with
  | none =>
    refine ⟨none, .none, Logging.get?_override_of_absent (fun mem => ?_) table⟩
    rw [spell.paths] at mem
    obtain ⟨entry, listed, rfl⟩ := List.mem_map.mp mem
    rw [mem_sortedFilters.mp listed] at given
    cases given
  | some text =>
    obtain ⟨level, spelled, mem⟩ := spell.of_mem (mem_sortedFilters.mpr given)
    exact ⟨some level, .some spelled, Logging.get?_override_of_mem distinct mem table⟩

theorem applied_of_read (spelled : Option.Rel Level.Spells level c.logLevel)
    (spell : SpellFilters filters c.sortedFilters) (w : World) :
    c.Applied w { w with
      channel := { w.channel with strict := c.strict }
      logging := configure level filters w.logging } where
  level := ⟨level, spelled, configure_level level filters w.logging⟩
  filters path := by
    obtain ⟨level, spelled, overridden⟩ := override_spelled spell w.logging.filters path
    exact ⟨level, spelled, (configure_filters _ filters w.logging path).trans overridden⟩
  effect := by
    refine ⟨level, spelled, fun inPlace => ?_, fun new => ?_⟩
    · exact configure_of_inPlace level ((inPlace_iff spell).mpr inPlace)
    · exact configure_of_new level fun inPlace => new ((inPlace_iff spell).mp inPlace)
  rest := rfl

theorem configure_configure (distinct : (filters.map Prod.fst).Nodup) (level : Option Level)
    (l : Logging) : configure level filters (configure level filters l) =
      configure level filters l := by
  refine configure_self level (fun filter mem => ?_) fun given asked => ?_
  · rw [configure_filters]
    exact Logging.get?_override_of_mem distinct mem l.filters
  · -- new filters put the level into effect a second time, which is no change
    subst asked
    refine ⟨configure_level (some given) filters l, ?_⟩
    rw [configure_eq]
    exact Logging.setFilters_installed (Logging.install_install _)

theorem valid_of_read (spelled : Option.Rel Level.Spells level c.logLevel)
    (spell : SpellFilters filters c.sortedFilters) : c.Valid := by
  rintro text (given | given)
  · rw [given] at spelled
    cases spelled with
    | some spelled => exact ⟨_, spelled⟩
  · obtain ⟨level, spelled, _⟩ := spell.of_mem (mem_sortedFilters.mpr given)
    exact ⟨level, spelled⟩

theorem apply_ends (c : Config) (w : World) :
    (c.Valid ∧ ∃ w', c.apply.run w = .ok () w' ∧ c.Applied w w' ∧ c.apply.run w' = .ok () w') ∨
      ∃ text, c.Names text ∧ (∀ level : Level, ¬ level.Spells text) ∧
        c.apply.run w = .error (.error (Level.refusal text)) w := by
  rcases c.readLevel_cases with ⟨level, spelled, readLevel⟩ | ⟨text, given, none, ends⟩
  · rcases readFilters_cases c.sortedFilters with ⟨filters, spell, readFilters⟩ |
      ⟨⟨path, text⟩, mem, none, ends⟩
    · have distinct : (filters.map Prod.fst).Nodup := spell.paths ▸ c.sortedFilters_distinct
      refine .inl ⟨valid_of_read spelled spell, _, apply_run readLevel readFilters w,
        applied_of_read spelled spell w, ?_⟩
      rw [apply_run readLevel readFilters]
      dsimp only
      rw [configure_configure distinct]
    · exact .inr ⟨text, .filter (mem_sortedFilters.mp mem), none,
        apply_refused (.inr ⟨level, readLevel, ends⟩) w⟩
  · exact .inr ⟨text, .level given, none, apply_refused (.inl ends) w⟩

end Config

open Config

/-- Applying a configuration with a name that is no level's fails because of such a name, and leaves
the world as it was. Any other configuration is applied: strict mode is the configuration's, the
level is the given one or the one before, each module path has the level given for it or the one it
had, these are put into effect, and nothing else changes. Applying it once more changes nothing. -/
theorem applying_all_or_nothing (c : Config) (w : World) :
    (¬ c.Valid → ∃ text, c.Names text ∧ (∀ level : Level, ¬ level.Spells text) ∧
      c.apply.run w = .error (.error (Level.refusal text)) w) ∧
    (c.Valid → ∃ w', c.apply.run w = .ok () w' ∧ c.Applied w w' ∧
      c.apply.run w' = .ok () w') := by
  rcases apply_ends c w with ⟨valid, applied⟩ | ⟨text, named, none, ends⟩
  · exact ⟨fun invalid => absurd valid invalid, fun _ => applied⟩
  · refine ⟨fun _ => ⟨text, named, none, ends⟩, fun valid => ?_⟩
    obtain ⟨level, spelled⟩ := valid text named
    exact absurd spelled (none level)

/-- A bad name in the last filter, and names of levels in several cases. -/
theorem last_filter_refused :
    let refused : Config := ⟨true, some "warn", .ofList [("app", "Off"), ("app::menu", "loud")]⟩
    let accepted : Config := ⟨true, some " Warn", .ofList [("app::menu", "ERROR")]⟩
    (∃ text, refused.apply.run World.initial =
      .error (.error (Level.refusal text)) World.initial) ∧
    ∃ w', accepted.apply.run World.initial = .ok () w' ∧ w'.channel.strict = true ∧
      accepted.apply.run w' = .ok () w' := by
  intro refused accepted
  have loud : ¬ refused.Valid := by
    intro valid
    have given : refused.moduleFilters.get? "app::menu" = some "loud" := by decide +kernel
    obtain ⟨level, spelled⟩ := valid "loud" (.filter given)
    rw [← Level.read_eq_ok] at spelled
    revert spelled
    cases level <;> decide +kernel
  have valid : accepted.Valid := by
    rintro text (given | given)
    · cases given
      exact ⟨.warn, Level.read_eq_ok.mp (by decide +kernel)⟩
    · rename_i path
      obtain ⟨_, rfl⟩ : path = "app::menu" ∧ text = "ERROR" := by
        have mem := mem_sortedFilters.mpr given
        have only : accepted.sortedFilters = [("app::menu", "ERROR")] := by decide +kernel
        simpa [only] using mem
      exact ⟨.error, Level.read_eq_ok.mp (by decide +kernel)⟩
  obtain ⟨text, _, _, ends⟩ := (applying_all_or_nothing refused World.initial).1 loud
  obtain ⟨w', ends', applied, again⟩ := (applying_all_or_nothing accepted World.initial).2 valid
  refine ⟨⟨text, ends⟩, w', ends', ?_, again⟩
  rw [applied.rest]

end Accessors
