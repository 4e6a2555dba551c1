import Accessors.Proofs.BlockedPath

/-! Paths of plain keys through sequences and records. A path whose keys are all there is read; a
value after a path is assigned at the last key, in the one collection that the path ends in, or
refused by a sequence that has no such position; and a path stops with an error where a
collection was wanted and nothing is. -/

namespace Accessors

namespace World

inductive Collection (w : World) : Value → Prop
  | seq {r : Ref} {items : Array Value} (there : w.objects[r]? = some (.seq items)) :
    Collection w (.seq r)
  | record {r : Ref} {fields : Table Value} (there : w.objects[r]? = some (.record fields)) :
    Collection w (.record r)

def lookup (w : World) (c : Value) (keys : List Value) : Value :=
  keys.foldl w.getKey c

/-- All keys of the path are plain, and each is looked up in a collection. -/
def Through (w : World) (c : Value) : List Value → Prop
  | [] => True
  | key :: keys => w.Collection c ∧ key.isPlainKey = true ∧ Through w (w.getKey c key) keys

/-- What becomes of a collection when a value is assigned at a key: the entry of that name is
written, an item is replaced, or the value is appended at the end. -/
inductive Assigned (w : World) (key v : Value) : Value → Ref → Object → Prop
  | entry {r : Ref} {fields : Table Value} (there : w.objects[r]? = some (.record fields)) :
    Assigned w key v (.record r) r (.record (fields.insert (w.display key) v))
  | item {r : Ref} {items : Array Value} {place : Nat}
      (there : w.objects[r]? = some (.seq items))
      (resolves : position? key items.size = some place) (within : place < items.size) :
    Assigned w key v (.seq r) r (.seq (items.setIfInBounds place v))
  | last {r : Ref} {items : Array Value} (there : w.objects[r]? = some (.seq items))
      (resolves : position? key items.size = some items.size) :
    Assigned w key v (.seq r) r (.seq (items.push v))

inductive Misplaced (w : World) (key : Value) : Value → Prop
  | mk {r : Ref} {items : Array Value} (there : w.objects[r]? = some (.seq items))
      (nowhere : ∀ place, position? key items.size = some place → items.size < place) :
    Misplaced w key (.seq r)

theorem Misplaced.not_assigned {w : World} {key v d : Value} (h : w.Misplaced key d) {r : Ref}
    {o : Object} : ¬ w.Assigned key v d r o := by
  intro assigned
  obtain ⟨there, nowhere⟩ := h
  cases assigned with
  | item there' resolves within =>
    rw [there] at there'
    cases there'
    exact Nat.lt_asymm within (nowhere _ resolves)
  | last there' resolves =>
    rw [there] at there'
    cases there'
    exact Nat.lt_irrefl _ (nowhere _ resolves)

theorem Collection.isContainer {w : World} {c : Value} (h : w.Collection c) :
    c.isContainer = true := by
  cases h <;> rfl

theorem Collection.isNullish {w : World} {c : Value} (h : w.Collection c) :
    c.isNullish = false := by
  cases h <;> rfl

theorem lookup_append (w : World) (c : Value) (front keys : List Value) :
    w.lookup c (front ++ keys) = w.lookup (w.lookup c front) keys :=
  List.foldl_append

theorem through_append {w : World} {c : Value} {front keys : List Value} :
    w.Through c (front ++ keys) ↔ w.Through c front ∧ w.Through (w.lookup c front) keys := by
  induction front generalizing c with
  | nil => exact ⟨fun h => ⟨trivial, h⟩, And.right⟩
  | cons key front ih =>
    have rest := ih (c := w.getKey c key)
    constructor
    · rintro ⟨collection, plain, h⟩
      obtain ⟨h, later⟩ := rest.mp h
      exact ⟨⟨collection, plain, h⟩, later⟩
    · rintro ⟨⟨collection, plain, h⟩, later⟩
      exact ⟨collection, plain, rest.mpr ⟨h, later⟩⟩

theorem Through.collection {w : World} {c key : Value} {front : List Value}
    (h : w.Through c (front ++ [key])) : w.Collection c := by
  cases front <;> exact h.1

theorem after_changeItems {w : World} {r : Ref} {items : Array Value}
    (there : w.objects[r]? = some (.seq items)) (f : Array Value → Array Value) :
    w.after (changeItems r f) = w.update r fun _ => .seq (f items) :=
  update_eq there _

end World

theorem setKey_seq (w : World) (r : Ref) (key v : Value) :
    (∃ place ≤ (w.sequence r).size, position? key (w.sequence r).size = some place ∧
      (setKey (.seq r) key v).run w =
        (if place < (w.sequence r).size then changeItems r (·.setIfInBounds place v)
        else changeItems r (·.push v)).run w) ∨
    (∀ place ≤ (w.sequence r).size, position? key (w.sequence r).size ≠ some place) ∧ ∃ more,
      (setKey (.seq r) key v).run w = .error (.error (.invalidKey (w.display key ++ more))) w := by
  unfold setKey
  rw [EStateM.run_bind, EStateM.run_get]
  dsimp only
  cases resolves : position? key (w.sequence r).size with
  | none =>
    refine .inr ⟨fun _ _ => by rintro ⟨⟩, "", ?_⟩
    rw [String.append_empty]
    rfl
  | some place =>
    dsimp only
    rcases Nat.lt_trichotomy place (w.sequence r).size with within | last | past
    · refine .inl ⟨place, Nat.le_of_lt within, rfl, ?_⟩
      rw [if_pos within, if_pos within]
    · refine .inl ⟨place, Nat.le_of_eq last, rfl, ?_⟩
      have outside := Nat.not_lt.mpr (Nat.le_of_eq last.symm)
      rw [if_neg outside, if_pos last, if_neg outside]
    · refine .inr ⟨fun other within same => ?_,
        " is past the end of a sequence of length " ++ toString (w.sequence r).size, ?_⟩
      · cases same
        omega
      · rw [if_neg (Nat.lt_asymm past), if_neg (Nat.ne_of_gt past), ← String.append_assoc]
        rfl

section
variable {w : World} {d key v : Value}

theorem setKey_run (collection : w.Collection d) (key v : Value) :
    (∃ r o, w.Assigned key v d r o ∧
      (setKey d key v).run w = .ok () (w.update r fun _ => o)) ∨
    (w.Misplaced key d ∧ ∃ more,
      (setKey d key v).run w = .error (.error (.invalidKey (w.display key ++ more))) w) := by
  cases collection with
  | @record r fields there =>
    refine .inl ⟨r, _, .entry there, ?_⟩
    exact congrArg (EStateM.Result.ok ()) (World.update_eq there _)
  | @seq r items there =>
    have set := setKey_seq w r key v
    rw [World.sequence_of there] at set
    rcases set with ⟨place, within, resolves, ran⟩ | ⟨nowhere, refused⟩
    · rw [ran]
      split
      · rename_i inside
        refine .inl ⟨r, _, .item there resolves inside, ?_⟩
        exact congrArg (EStateM.Result.ok ()) (World.after_changeItems there _)
      · rename_i outside
        obtain rfl := Nat.le_antisymm within (Nat.not_lt.mp outside)
        refine .inl ⟨r, _, .last there resolves, ?_⟩
        exact congrArg (EStateM.Result.ok ()) (World.after_changeItems there _)
    · exact .inr ⟨.mk there fun place found =>
        Nat.not_le.mp fun within => nowhere place within found, refused⟩

theorem accessKey_read (w : World) (c key : Value)
    (next : Value → Option Constructor → Action Outcome) :
    (accessKey c key [] next).run w = .ok (.read (w.getKey c key)) w :=
  rfl

theorem accessKey_entry {c last : Value} (found : w.hasKey (w.getKey c key) last = true)
    (next : Value → Option Constructor → Action Outcome) :
    (accessKey c key [last] next).run w = (next (w.getKey c key) none).run w := by
  unfold accessKey
  rw [EStateM.run_bind, EStateM.run_get]
  simp only [found, if_true]

theorem accessKey_assign {c : Value} (absent : w.hasKey (w.getKey c key) v = false)
    (next : Value → Option Constructor → Action Outcome) :
    (accessKey c key [v] next).run w = (setKey c key v >>= fun _ => pure .done).run w := by
  unfold accessKey
  rw [EStateM.run_bind, EStateM.run_get]
  simp only [absent, Bool.false_eq_true, if_false]

theorem evaluate_read (e : Engine) (passes : w.Passes d key) :
    (evaluate e d key [] none).run w = .ok (.read (w.getKey d key)) w := by
  unfold evaluate
  rw [evaluateWith_passes e passes]
  exact accessKey_read w d key _

theorem evaluate_entry (e : Engine) {c last : Value} (passes : w.Passes c key)
    (found : w.hasKey (w.getKey c key) last = true) :
    (evaluate e c key [last] none).run w = (evaluate e (w.getKey c key) last [] none).run w := by
  unfold evaluate
  rw [evaluateWith_passes e passes]
  exact accessKey_entry found _

theorem evaluate_assign (e : Engine) {c : Value} (passes : w.Passes c key)
    (absent : w.hasKey (w.getKey c key) v = false) :
    (evaluate e c key [v] none).run w = (setKey c key v >>= fun _ => pure .done).run w := by
  unfold evaluate
  rw [evaluateWith_passes e passes]
  exact accessKey_assign absent _

theorem evaluate_stops (e : Engine) {c : Value} (passes : w.Passes c key)
    (nullish : (w.getKey c key).isNullish = true) (first second : Value) (rest : List Value) :
    (evaluate e c key (first :: second :: rest) none).run w =
      .error (.error (.invalidKey (w.display key))) w := by
  unfold evaluate
  rw [evaluateWith_passes e passes]
  exact accessKey_nullish nullish first second rest _

theorem evaluate_along (e : Engine) {c first : Value} {front rest later : List Value}
    (path : first :: rest = front ++ key :: later) (through : w.Through c (front ++ [key]))
    (more : later ≠ []) :
    (evaluate e c first rest none).run w = (evaluate e (w.lookup c front) key later none).run w := by
  induction front generalizing c first rest with
  | nil =>
    obtain ⟨rfl, rfl⟩ := List.cons.inj path
    rfl
  | cons k front ih =>
    rw [List.cons_append] at path through
    obtain ⟨rfl, rfl⟩ := List.cons.inj path
    obtain ⟨collection, plain, onward⟩ := through
    have present := onward.collection.isNullish
    obtain ⟨second, others, next⟩ : ∃ second others, front ++ key :: later = second :: others :=
      List.exists_cons_of_ne_nil (by simp)
    obtain ⟨third, left, rfl⟩ : ∃ third left, others = third :: left := by
      refine List.exists_cons_of_ne_nil fun none => more ?_
      have length := congrArg List.length next
      simp only [none, List.length_append, List.length_cons, List.length_nil] at length
      exact List.eq_nil_of_length_eq_zero (by omega)
    rw [next, evaluate_descends e collection.isContainer plain present]
    exact ih next.symm onward

theorem evaluate_reads_along (e : Engine) {c first : Value} {front rest : List Value}
    (path : first :: rest = front ++ [key]) (through : w.Through c (front ++ [key]))
    (found : front = [] ∨ w.hasKey (w.lookup c front) key = true) :
    (evaluate e c first rest none).run w = .ok (.read (w.getKey (w.lookup c front) key)) w := by
  obtain ⟨before, collection, plain, _⟩ := World.through_append.mp through
  have passes := w.passes_container collection.isContainer plain
  rcases List.eq_nil_or_concat front with rfl | ⟨earlier, k, rfl⟩
  · obtain ⟨rfl, rfl⟩ := List.cons.inj path
    exact evaluate_read e passes
  · -- the last key is one of the keys of the entry before it
    rw [List.concat_eq_append] at *
    have found : w.hasKey (w.lookup c (earlier ++ [k])) key = true := found.resolve_left (by simp)
    obtain ⟨_, outer, plainer, _⟩ := World.through_append.mp before
    rw [evaluate_along e (by simpa using path) before (List.cons_ne_nil key [])]
    rw [w.lookup_append] at found passes ⊢
    rw [evaluate_entry e (w.passes_container outer.isContainer plainer) found]
    exact evaluate_read e passes

theorem evaluate_assigns_along (e : Engine) {c first v : Value} {front rest : List Value}
    (path : first :: rest = front ++ [key]) (through : w.Through c (front ++ [key]))
    (absent : w.hasKey (w.getKey (w.lookup c front) key) v = false) :
    (evaluate e c first (rest ++ [v]) none).run w =
      (setKey (w.lookup c front) key v >>= fun _ => pure .done).run w := by
  obtain ⟨_, collection, plain, _⟩ := World.through_append.mp through
  have longer : first :: (rest ++ [v]) = front ++ key :: [v] := by
    rw [← List.cons_append, path, List.append_assoc]
    rfl
  rw [evaluate_along e longer through (List.cons_ne_nil v [])]
  exact evaluate_assign e (w.passes_container collection.isContainer plain) absent

theorem evaluate_stops_along (e : Engine) {c first v : Value} {front later rest : List Value}
    (path : first :: rest = front ++ key :: later) (some : later ≠ [])
    (through : w.Through c (front ++ [key]))
    (nullish : (w.lookup c (front ++ [key])).isNullish = true) :
    (evaluate e c first (rest ++ [v]) none).run w =
      .error (.error (.invalidKey (w.display key))) w := by
  obtain ⟨_, collection, plain, _⟩ := World.through_append.mp through
  obtain ⟨second, others, rfl⟩ := List.exists_cons_of_ne_nil some
  obtain ⟨third, left, remaining⟩ : ∃ third left, others ++ [v] = third :: left :=
    List.exists_cons_of_ne_nil (by simp)
  have longer : first :: (rest ++ [v]) = front ++ key :: second :: third :: left := by
    rw [← List.cons_append, path, ← remaining, List.append_assoc]
    rfl
  rw [evaluate_along e longer through (List.cons_ne_nil second _)]
  rw [w.lookup_append] at nullish
  exact evaluate_stops e (w.passes_container collection.isContainer plain) nullish _ _ _

end

/-- Paths of plain keys through collections. When the key at the end is the only one, or is there,
its entry is read and nothing changes. A value after the path that is no key of that entry is
assigned: of all objects only the collection at the end of the path changes, unless it is a
sequence without such a position; then the call fails with the key and nothing changes. Nor does
it when an entry before the last key is nullish: the call fails with the key of that entry. -/
theorem path_reads_assigns_or_stops (e : Engine) (w : World) (c first : Value)
    (rest : List Value) :
    (∀ front key, first :: rest = front ++ [key] → w.Through c (front ++ [key]) →
      (front = [] ∨ w.hasKey (w.lookup c front) key = true →
        (evaluate e c first rest none).run w =
          .ok (.read (w.getKey (w.lookup c front) key)) w) ∧
      ∀ v, w.hasKey (w.getKey (w.lookup c front) key) v = false →
        (¬ w.Misplaced key (w.lookup c front) → ∃ r o, w.Assigned key v (w.lookup c front) r o ∧
          (evaluate e c first (rest ++ [v]) none).run w = .ok .done (w.update r fun _ => o)) ∧
        (w.Misplaced key (w.lookup c front) → ∃ more,
          (evaluate e c first (rest ++ [v]) none).run w =
            .error (.error (.invalidKey (w.display key ++ more))) w)) ∧
    ∀ front key later v, first :: rest = front ++ key :: later → later ≠ [] →
      w.Through c (front ++ [key]) → (w.lookup c (front ++ [key])).isNullish = true →
      (evaluate e c first (rest ++ [v]) none).run w =
        .error (.error (.invalidKey (w.display key))) w := by
  refine ⟨fun front key path through => ⟨evaluate_reads_along e path through, ?_⟩,
    fun front key later v path some => evaluate_stops_along e path some⟩
  intro v absent
  obtain ⟨_, collection, _, _⟩ := World.through_append.mp through
  have assigns := evaluate_assigns_along e path through absent
  rcases setKey_run collection key v with ⟨r, o, assigned, ran⟩ | ⟨misplaced, more, ran⟩
  · rw [EStateM.run_bind, ran] at assigns
    exact ⟨fun _ => ⟨r, o, assigned, assigns⟩,
      fun misplaced => absurd assigned misplaced.not_assigned⟩
  · rw [EStateM.run_bind, ran] at assigns
    exact ⟨fun placed => absurd misplaced placed, fun _ => ⟨more, assigns⟩⟩

/-- A record with a sequence of two numbers in it, and null. -/
def numbersUnderRecord : World :=
  { World.initial with
    objects := #[.record (Table.ofList [("a", .seq 1), ("n", .null)]),
      .seq #[.number 1, .number 2]] }

/-- In that record: the path to the last number is read, a text is assigned there, and appended,
and refused further on; and the path through null stops. -/
theorem path_into_sequence :
    let w := numbersUnderRecord
    let run (path : List Value) := (evaluate (engine 1) (.record 0) (.str "a") path none).run w
    run [.str "-1"] = .ok (.read (.number 2)) w ∧
      (∃ r o, w.Assigned (.str "-1") (.str "x") (.seq 1) r o ∧
        run [.str "-1", .str "x"] = .ok .done (w.update r fun _ => o)) ∧
      (∃ r o, w.Assigned (.str "2") (.str "x") (.seq 1) r o ∧
        run [.str "2", .str "x"] = .ok .done (w.update r fun _ => o)) ∧
      (∃ more, run [.str "3", .str "x"] = .error (.error (.invalidKey ("3" ++ more))) w) ∧
      (evaluate (engine 1) (.record 0) (.str "n") [.str "b", .str "x"] none).run w =
        .error (.error (.invalidKey "n")) w := by
  intro w run
  have there : w.objects[1]? = some (.seq #[.number 1, .number 2]) := rfl
  have through (text : String) (plain : (Value.str text).isPlainKey = true) :
      w.Through (.record 0) [.str "a", .str text] :=
    ⟨.record rfl, by decide, .seq there, plain, trivial⟩
  have placed {text : String} {place : Nat} (resolves : position? (.str text) 2 = some place)
      (within : place ≤ 2) : ¬ w.Misplaced (.str text) (.seq 1) := by
    rintro ⟨there', nowhere⟩
    cases there.symm.trans there'
    exact Nat.not_lt.mpr within (nowhere place resolves)
  have misplaced : w.Misplaced (.str "3") (.seq 1) := .mk there fun place found => by
    have resolves : position? (.str "3") 2 = some 3 := rfl
    cases resolves.symm.trans found
    decide
  have stops : w.Through (.record 0) [.str "n"] := ⟨.record rfl, by decide, trivial⟩
  have along (text : String) :=
    (path_reads_assigns_or_stops (engine 1) w (.record 0) (.str "a") [.str text]).1
      [.str "a"] (.str text) rfl
  exact ⟨(along "-1" (through "-1" (by decide))).1 (.inr rfl),
    ((along "-1" (through "-1" (by decide))).2 (.str "x") rfl).1 (placed rfl (by decide)),
    ((along "2" (through "2" (by decide))).2 (.str "x") rfl).1 (placed rfl (by decide)),
    ((along "3" (through "3" (by decide))).2 (.str "x") rfl).2 misplaced,
    (path_reads_assigns_or_stops (engine 1) w (.record 0) (.str "n") [.str "b"]).2
      [] (.str "n") [.str "b"] (.str "x") rfl (by simp) stops rfl⟩

end Accessors
