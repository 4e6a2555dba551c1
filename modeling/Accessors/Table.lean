import Std.Data.HashMap

/-! Tables: maps from names that remember the order in which the names came. Writing
a name that is there replaces its value in place; a new name goes last, and no name occurs
twice. The entries say all about a table; an index of their positions only makes larger
tables fast. Main statements: `get?_eq` and `entries_insert` say what reading and writing do
to the list of entries. -/

namespace Accessors

/-- The position of every name of a list. -/
def positions (names : List String) : Std.HashMap String Nat :=
  names.foldl (fun index name => index.insert name index.size) ∅

structure Table (α : Type) where
  slots : Array (String × α)
  index : Std.HashMap String Nat
  nodup : (slots.toList.map Prod.fst).Nodup
  index_eq : index = positions (slots.toList.map Prod.fst)

/-- Writes an entry into a list of entries. -/
def insertEntry {α : Type} (name : String) (a : α) : List (String × α) → List (String × α)
  | [] => [(name, a)]
  | entry :: rest =>
    if entry.1 = name then (name, a) :: rest else entry :: insertEntry name a rest

theorem positions_append (names : List String) (name : String) :
    positions (names ++ [name]) = (positions names).insert name (positions names).size := by
  simp [positions]

/-- The index of distinct names has each of them at its position. -/
theorem positions_fold (prior names : List String) (index : Std.HashMap String Nat)
    (distinct : (prior ++ names).Nodup) (size : index.size = prior.length)
    (found : ∀ name, index[name]? = prior.idxOf? name) (name : String) :
    (names.foldl (fun index name => index.insert name index.size) index)[name]? =
      (prior ++ names).idxOf? name := by
  induction names generalizing prior index with
  | nil => simp [found]
  | cons next rest ih =>
    have fresh : next ∉ prior := by
      rw [List.nodup_append] at distinct
      exact fun h => distinct.2.2 _ h _ (by simp) rfl
    have absent : index[next]? = none := by rw [found]; exact List.idxOf?_eq_none_iff.mpr fresh
    have step := ih (prior ++ [next]) (index.insert next index.size) (by simpa using distinct)
      (by simp [Std.HashMap.size_insert, Std.HashMap.mem_iff_isSome_getElem?, absent, size])
      (fun other => by
        rw [Std.HashMap.getElem?_insert, found, List.idxOf?, List.findIdx?_append]
        by_cases h : next = other
        · subst h
          rw [show prior.findIdx? (· == next) = none from List.idxOf?_eq_none_iff.mpr fresh]
          simp [size]
        · simp [h])
    simpa using step

theorem getElem?_positions {names : List String} (distinct : names.Nodup) (name : String) :
    (positions names)[name]? = names.idxOf? name :=
  positions_fold [] names ∅ distinct (by simp) (fun _ => by simp [List.idxOf?]) name

theorem keys_insertEntry {α : Type} (name : String) (a : α) (entries : List (String × α)) :
    (insertEntry name a entries).map Prod.fst =
      if name ∈ entries.map Prod.fst then entries.map Prod.fst
      else entries.map Prod.fst ++ [name] := by
  induction entries with
  | nil => simp [insertEntry]
  | cons entry rest ih =>
    by_cases h : entry.1 = name
    · simp [insertEntry, h]
    · have h' : ¬name = entry.1 := fun eq => h eq.symm
      simp only [insertEntry, h, if_false, List.map_cons, ih, List.mem_cons, h', false_or]
      split <;> simp

theorem lookup_insertEntry {α : Type} (name other : String) (a : α)
    (entries : List (String × α)) :
    (insertEntry name a entries).lookup other =
      if other = name then some a else entries.lookup other := by
  induction entries with
  | nil =>
    by_cases h : other = name
    · simp [insertEntry, h]
    · simp [insertEntry, List.lookup_cons, List.lookup_nil, beq_false_of_ne h, h]
  | cons entry rest ih =>
    obtain ⟨key, value⟩ := entry
    by_cases h : key = name
    · subst h
      by_cases ho : other = key
      · simp [insertEntry, ho]
      · simp [insertEntry, List.lookup_cons, beq_false_of_ne ho, ho]
    · by_cases ho : other = key
      · subst ho
        simp [insertEntry, h]
      · simp only [insertEntry, h, if_false, List.lookup_cons, beq_false_of_ne ho, ih]

theorem insertEntry_of_found {α : Type} {name : String} {entries : List (String × α)} {i : Nat}
    (found : entries.findIdx? (·.1 == name) = some i) (a : α) :
    insertEntry name a entries = entries.set i (name, a) := by
  induction entries generalizing i with
  | nil => simp at found
  | cons entry rest ih =>
    rw [List.findIdx?_cons] at found
    by_cases h : entry.1 = name
    · simp only [h, beq_self_eq_true, if_true, Option.some.injEq] at found
      subst found
      simp [insertEntry, h]
    · simp only [beq_false_of_ne h, Bool.false_eq_true, if_false, Option.map_eq_some_iff] at found
      obtain ⟨j, found, rfl⟩ := found
      simp [insertEntry, h, ih found]

theorem insertEntry_of_absent {α : Type} {name : String} {entries : List (String × α)}
    (absent : entries.findIdx? (·.1 == name) = none) (a : α) :
    insertEntry name a entries = entries ++ [(name, a)] := by
  induction entries with
  | nil => rfl
  | cons entry rest ih =>
    rw [List.findIdx?_cons] at absent
    by_cases h : entry.1 = name
    · simp [h] at absent
    · simp only [beq_false_of_ne h, Bool.false_eq_true, if_false, Option.map_eq_none_iff] at absent
      simp [insertEntry, h, ih absent]

theorem lookup_of_position {α : Type} (name : String) (entries : List (String × α)) :
    ((entries.findIdx? (·.1 == name)).bind fun i => entries[i]?.map Prod.snd) =
      entries.lookup name := by
  induction entries with
  | nil => rfl
  | cons entry rest ih =>
    obtain ⟨key, value⟩ := entry
    by_cases h : name = key
    · simp [List.findIdx?_cons, h]
    · rw [List.findIdx?_cons, List.lookup_cons, beq_false_of_ne h, ← ih,
        beq_false_of_ne fun eq => h eq.symm]
      cases rest.findIdx? (·.1 == name) <;> simp

namespace Table
variable {α β : Type}

def empty : Table α := ⟨#[], ∅, by simp, rfl⟩

/-- The entries, oldest name first. -/
def entries (t : Table α) : List (String × α) :=
  t.slots.toList

def keys (t : Table α) : List String :=
  t.entries.map Prod.fst

def values (t : Table α) : List α :=
  t.entries.map Prod.snd

def size (t : Table α) : Nat :=
  t.slots.size

/-- Tables of at most this size are searched entry by entry. -/
def smallSize : Nat := 16

def position? (t : Table α) (name : String) : Option Nat :=
  if t.size ≤ smallSize then t.entries.findIdx? (·.1 == name) else t.index[name]?

def get? (t : Table α) (name : String) : Option α :=
  (t.position? name).bind fun i => t.slots[i]?.map Prod.snd

def has (t : Table α) (name : String) : Bool :=
  (t.get? name).isSome

theorem position?_eq (t : Table α) (name : String) :
    t.position? name = t.entries.findIdx? (·.1 == name) := by
  unfold position?
  split
  · rfl
  · rw [t.index_eq, getElem?_positions t.nodup, List.idxOf?, List.findIdx?_map]
    rfl

theorem keys_nodup (t : Table α) : t.keys.Nodup := t.nodup

/-- What is read is the entry of the name. -/
theorem get?_eq (t : Table α) (name : String) : t.get? name = t.entries.lookup name := by
  rw [← lookup_of_position, ← position?_eq]
  simp [get?, entries]

theorem keys_of_replaced {t : Table α} {name : String} {i : Nat}
    (found : t.position? name = some i) (a : α) :
    (t.slots.setIfInBounds i (name, a)).toList.map Prod.fst = t.slots.toList.map Prod.fst := by
  rw [position?_eq, entries] at found
  obtain ⟨lt, same, _⟩ := List.findIdx?_eq_some_iff_getElem.mp found
  rw [Array.toList_setIfInBounds, List.map_set, ← beq_iff_eq.mp same]
  exact List.ext_getElem (by simp) fun j _ _ => by
    by_cases h : i = j
    · subst h; simp
    · simp [h]

/-- Writes a name: in place when it is there, else at the end. -/
def insert (t : Table α) (name : String) (a : α) : Table α :=
  match found : t.position? name with
  | some i =>
    { slots := t.slots.setIfInBounds i (name, a)
      index := t.index
      nodup := (keys_of_replaced found a).symm ▸ t.nodup
      index_eq := (keys_of_replaced found a).symm ▸ t.index_eq }
  | none =>
    { slots := t.slots.push (name, a)
      index := t.index.insert name t.index.size
      nodup := by
        rw [position?_eq, entries] at found
        rw [Array.toList_push, ← insertEntry_of_absent found a, keys_insertEntry]
        split
        · exact t.nodup
        · rename_i fresh
          refine List.nodup_append.mpr ⟨t.nodup, by simp, fun x hx y hy eq => fresh ?_⟩
          rw [← List.mem_singleton.mp hy, ← eq]
          exact hx
      index_eq := by
        rw [Array.toList_push, List.map_append, List.map_singleton, positions_append,
          ← t.index_eq] }

def ofList (entries : List (String × α)) : Table α :=
  entries.foldl (fun t entry => t.insert entry.1 entry.2) empty

def map (f : α → β) (t : Table α) : Table β where
  slots := t.slots.map fun entry => (entry.1, f entry.2)
  index := t.index
  nodup := by simpa [Function.comp_def] using t.nodup
  index_eq := by simpa [Function.comp_def] using t.index_eq

/-- The table without `name`. -/
def erase (t : Table α) (name : String) : Table α where
  slots := t.slots.filter (·.1 ≠ name)
  index := positions ((t.slots.filter (·.1 ≠ name)).toList.map Prod.fst)
  nodup := by
    rw [Array.toList_filter]
    exact t.nodup.sublist (List.filter_sublist.map _)
  index_eq := rfl

instance : Inhabited (Table α) := ⟨empty⟩

/-- Writing a name writes its entry. -/
theorem entries_insert (t : Table α) (name : String) (a : α) :
    (t.insert name a).entries = insertEntry name a t.entries := by
  unfold insert
  split
  · rename_i i found
    rw [position?_eq] at found
    rw [insertEntry_of_found found]
    exact Array.toList_setIfInBounds
  · rename_i found
    rw [position?_eq] at found
    rw [insertEntry_of_absent found]
    exact Array.toList_push

theorem keys_insert (t : Table α) (name : String) (a : α) :
    (t.insert name a).keys = if name ∈ t.keys then t.keys else t.keys ++ [name] := by
  rw [keys, entries_insert]
  exact keys_insertEntry name a t.entries

theorem get?_insert (t : Table α) (name other : String) (a : α) :
    (t.insert name a).get? other = if other = name then some a else t.get? other := by
  rw [get?_eq, entries_insert, get?_eq]
  exact lookup_insertEntry name other a t.entries

/-- Every entry is what its name reads. -/
theorem get?_of_mem {t : Table α} {name : String} {a : α} (mem : (name, a) ∈ t.entries) :
    t.get? name = some a := by
  obtain ⟨before, after, split⟩ := List.append_of_mem mem
  have distinct := t.keys_nodup
  rw [keys, split, List.map_append, List.map_cons] at distinct
  rw [get?_eq, List.lookup_eq_some_iff]
  refine ⟨before, after, split, fun other earlier => ?_⟩
  have apart := (List.nodup_append.mp distinct).2.2 _ (List.mem_map_of_mem earlier) _
    List.mem_cons_self
  simpa using fun eq => apart eq.symm

/-- The values are what the names read, in order. -/
theorem map_some_values (t : Table α) : t.values.map some = t.keys.map t.get? := by
  unfold values keys
  rw [List.map_map, List.map_map]
  exact List.map_congr_left fun _ mem => (get?_of_mem mem).symm

theorem mem_values_of_get? {t : Table α} {name : String} {a : α} (found : t.get? name = some a) :
    a ∈ t.values := by
  rw [get?_eq] at found
  obtain ⟨before, after, split, _⟩ := List.lookup_eq_some_iff.mp found
  simp [values, split]

theorem mem_values_insert {t : Table α} {name : String} {a b : α}
    (h : b ∈ (t.insert name a).values) : b = a ∨ b ∈ t.values := by
  unfold values at h ⊢
  rw [entries_insert] at h
  generalize t.entries = entries at h ⊢
  induction entries with
  | nil => simpa [insertEntry] using h
  | cons entry rest ih =>
    unfold insertEntry at h
    split at h
    · rcases List.mem_cons.mp h with h | h
      · exact .inl h
      · exact .inr (List.mem_cons_of_mem _ h)
    · rcases List.mem_cons.mp h with h | h
      · exact .inr (h ▸ List.mem_cons_self)
      · exact (ih h).imp id (List.mem_cons_of_mem _)

/-- A table of given entries holds nothing else. -/
theorem mem_values_ofList {entries : List (String × α)} {a : α} (h : a ∈ (ofList entries).values) :
    ∃ entry ∈ entries, entry.2 = a := by
  refine List.foldlRecOn (motive := fun t : Table α => a ∈ t.values → ∃ entry ∈ entries, entry.2 = a)
    entries _ ?_ (fun t ih entry mem h => ?_) h
  · simp [values, Table.entries, empty]
  · exact (mem_values_insert h).elim (fun eq => ⟨entry, mem, eq.symm⟩) ih

theorem entries_foldl_insert {t : Table α} {entries : List (String × α)}
    (distinct : (t.keys ++ entries.map Prod.fst).Nodup) :
    (entries.foldl (fun t entry => t.insert entry.1 entry.2) t).entries = t.entries ++ entries := by
  induction entries generalizing t with
  | nil => simp
  | cons entry rest ih =>
    have fresh : entry.1 ∉ t.keys := fun mem =>
      (List.nodup_append.mp distinct).2.2 _ mem _ (by simp) rfl
    have absent : t.entries.findIdx? (·.1 == entry.1) = none := by
      rw [List.findIdx?_eq_none_iff]
      refine fun other mem => beq_false_of_ne fun eq => fresh ?_
      exact eq ▸ List.mem_map_of_mem mem
    have more : (t.insert entry.1 entry.2).entries = t.entries ++ [entry] := by
      rw [entries_insert, insertEntry_of_absent absent]
    rw [List.foldl_cons, ih, more, List.append_assoc]
    · rfl
    · rw [keys, more]
      simpa [keys] using distinct

/-- A table of entries with different names has just these. -/
theorem entries_ofList {entries : List (String × α)} (distinct : (entries.map Prod.fst).Nodup) :
    (ofList entries).entries = entries :=
  entries_foldl_insert (t := empty) distinct

theorem has_insert (t : Table α) (name other : String) (a : α) :
    (t.insert name a).has other = (decide (other = name) || t.has other) := by
  by_cases h : other = name <;> simp [has, get?_insert, h]

end Table

end Accessors
