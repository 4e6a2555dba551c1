import Accessors.Proofs.StrictMode
import Mathlib.Data.List.Nodup

/-! The modes of a serializer. Excluding names is including all the other readable ones, and
including names is mapping each of them to itself: each mode does what the other does, step by
step, up to the point where an error stops it. In the modes that list their entries, an entry
that names no readable property makes one report at its turn and shows nothing. -/

namespace Accessors

def EntityType.readableNames (type : EntityType) : List String :=
  (type.properties.entries.filter fun entry => entry.2.mode.isReadable).map Prod.fst

namespace Serializer

def entries? : Serializer → Option (List (String × Option String))
  | map entries => some entries.entries
  | inclusive keys => some (keys.map fun key => (key, some key))
  | _ => none

def refusal (key : String) : Report :=
  ⟨.error, "Invalid key for toJSON: " ++ key ++ " is not a property"⟩

end Serializer

section
variable (e : Engine) (this : Value) {type : EntityType}

theorem EntityType.readable?_of_entry {entry : String × Property}
    (mem : entry ∈ type.properties.entries) :
    type.readable? entry.1 = if entry.2.mode.isReadable then some entry.2 else none := by
  have found : type.property? entry.1 = some entry.2 := Table.get?_of_mem mem
  rw [readable?, found, Option.filter_some]

theorem addReadable_eq_addEntries (excluded : List String) (output : Table Json)
    {members : List (String × Property)} (declared : ∀ m ∈ members, m ∈ type.properties.entries) :
    addReadable e this excluded output members =
      addEntries e this type output
        ((((members.filter fun m => m.2.mode.isReadable).map Prod.fst).filter
          (· ∉ excluded)).map fun name => (name, some name)) := by
  induction members generalizing output with
  | nil => rfl
  | cons m rest ih =>
    obtain ⟨here, others⟩ := List.forall_mem_cons.mp declared
    have found := EntityType.readable?_of_entry here
    obtain ⟨name, p⟩ := m
    dsimp only at found
    unfold addReadable
    cases readable : p.mode.isReadable with
    | false => simpa [readable] using ih output others
    | true =>
      rw [readable, if_pos rfl] at found
      by_cases left : name ∈ excluded
      · simpa [readable, left] using ih output others
      · have kept : (((((name, p) :: rest).filter fun m => m.2.mode.isReadable).map Prod.fst).filter
            (· ∉ excluded)) =
            name :: ((rest.filter fun m => m.2.mode.isReadable).map Prod.fst).filter
              (· ∉ excluded) := by
          simp [readable, left]
        rw [kept, List.map_cons, addEntries, Option.bind_some, found]
        simp only [List.contains_eq_mem, left, decide_false, Bool.not_false, Bool.and_self, if_true]
        exact congrArg _ (funext fun output => ih output others)

theorem serialize_exclusive (excluded : List String) :
    (Serializer.exclusive excluded).serialize e this type =
      (Serializer.inclusive (type.readableNames.filter (· ∉ excluded))).serialize
        e this type :=
  addReadable_eq_addEntries e this excluded .empty fun _ mem => mem

theorem serialize_inclusive {keys : List String} (distinct : keys.Nodup) :
    (Serializer.inclusive keys).serialize e this type =
      (Serializer.map (Table.ofList (keys.map fun key => (key, some key)))).serialize
        e this type := by
  have once : ((keys.map fun key => (key, some key)).map Prod.fst).Nodup := by
    simpa [Function.comp_def] using distinct
  show addEntries e this type .empty _ = addEntries e this type .empty _
  rw [Table.entries_ofList once]

end

/-- From one world to another just this was announced, and handed over in this order. -/
structure World.Hears (w w' : World) (announced : List (Report × Scene)) : Prop where
  history : w'.history = w.history.map (· ++ announced)
  channel : w'.channel = w.channel.deliverAll announced

namespace World.Hears
variable {w w₁ w₂ : World} {first second : List (Report × Scene)}

theorem refl (w : World) : w.Hears w [] := ⟨(Ghost.map_append_nil _).symm, rfl⟩

theorem trans (early : w.Hears w₁ first) (late : w₁.Hears w₂ second) :
    w.Hears w₂ (first ++ second) where
  history := by
    rw [late.history, early.history, Ghost.map_map]
    simp
  channel := by rw [late.channel, early.channel, Channel.deliverAll_append]

theorem announce (w : World) (report : Report) :
    w.Hears (w.announce report) [(report, w.toScene)] := ⟨rfl, rfl⟩

end World.Hears

theorem Stepwise.hears {ρ : Rules} {α : Type} {a : Action α} (h : Stepwise ρ a) {w : World}
    (types : w.types = ρ.types) : ∃ announced, w.Hears (w.after a) announced := by
  cases strict : w.channel.strict with
  | false =>
    obtain ⟨_, announced, followed⟩ := h.follows w types strict
    exact ⟨announced, followed.history, followed.channel⟩
  | true =>
    -- A strict run follows the plain run from the same world, to its first announcement.
    let plain := w.hearing { w.channel with strict := false } w.history
    have same : plain.inStrictMode = w := by
      show w.hearing { w.channel with strict := true } w.history = w
      rw [← strict]
      rfl
    obtain ⟨_, announced, history, channel, ran⟩ := h.follows plain types rfl
    rw [same] at ran
    cases announced with
    | nil =>
      have after : w.after a = (plain.after a).inStrictMode := by
        unfold World.after
        rw [ran]
        cases a.run plain <;> rfl
      rw [after]
      refine ⟨[], history, ?_⟩
      show (plain.after a).channel.inStrictMode = w.channel
      rw [channel, ← same]
      rfl
    | cons first rest =>
      have after := World.after_eq_of_error ran
      rw [after]
      refine ⟨[first], rfl, ?_⟩
      show plain.channel.inStrictMode.deliver first.1 = w.channel.deliver first.1
      rw [← same]
      rfl

/-- The turns of listed entries, from one world to another, and what each of them announced.
The turn of an entry that names no readable property makes one report and does nothing else;
the turn of another reads its property into the output. -/
inductive Turns (e : Engine) (this : Value) (type : EntityType) :
    World → List (String × Option String) → List (List (Report × Scene)) → World → Prop
  | done (w : World) : Turns e this type w [] [] w
  | refuse {w w' : World} {key : String} {source : Option String}
      {rest : List (String × Option String)} {parts : List (List (Report × Scene))}
      (unreadable : source.bind type.readable? = none)
      (next : Turns e this type (w.announce (Serializer.refusal key)) rest parts w') :
      Turns e this type w ((key, source) :: rest)
        ([(Serializer.refusal key, w.toScene)] :: parts) w'
  | read {w w' : World} {key : String} {source : Option String}
      {rest : List (String × Option String)} {part : List (Report × Scene)}
      {parts : List (List (Report × Scene))} {p : Property} (output : Table Json)
      (readable : source.bind type.readable? = some p)
      (heard : w.Hears (w.after (addMember e this output key p)) part)
      (next : Turns e this type (w.after (addMember e this output key p)) rest parts w') :
      Turns e this type w ((key, source) :: rest) (part :: parts) w'

section
variable {e : Engine} {this : Value} {type : EntityType}

theorem Turns.hears {w w' : World} {entries : List (String × Option String)}
    {parts : List (List (Report × Scene))} (turns : Turns e this type w entries parts w') :
    w.Hears w' parts.flatten := by
  induction turns with
  | done w => exact .refl w
  | refuse _ _ ih => exact (World.Hears.announce _ _).trans ih
  | read _ _ heard _ ih => exact heard.trans ih

variable (e this type) in
def Serves (w : World) (entries : List (String × Option String)) (a : Action (Table Json)) : Prop :=
  ∃ served rest parts, entries = served ++ rest ∧ Turns e this type w served parts (w.after a) ∧
    ∀ output w', a.run w = .ok output w' → rest = []

theorem Serves.bind {α : Type} {w : World} {entry : String × Option String}
    {others : List (String × Option String)} {part : List (Report × Scene)} {a : Action α}
    {k : α → Action (Table Json)}
    (turn : ∀ {served parts w'}, Turns e this type (w.after a) served parts w' →
      Turns e this type w (entry :: served) (part :: parts) w')
    (later : ∀ v w₁, Serves e this type w₁ others (k v)) :
    Serves e this type w (entry :: others) (a >>= k) := by
  cases ending : a.run w with
  | ok v w₁ =>
    obtain ⟨served, rest, parts, split, turns, whole⟩ := later v w₁
    rw [World.after_eq_of_ok ending] at turn
    refine ⟨entry :: served, rest, part :: parts, by rw [split, List.cons_append], ?_, ?_⟩
    · rw [World.after_bind, ending]
      exact turn turns
    · rw [EStateM.run_bind, ending]
      exact whole
  | error stop w₁ =>
    rw [World.after_eq_of_error ending] at turn
    refine ⟨[entry], others, [part], rfl, ?_, fun output w' ran => ?_⟩
    · rw [World.after_bind, ending]
      exact turn (.done w₁)
    · rw [EStateM.run_bind, ending] at ran
      cases ran

theorem addEntries_serves (orderly : e.Orderly) (output : Table Json)
    (entries : List (String × Option String)) (w : World) :
    Serves e this type w entries (addEntries e this type output entries) := by
  induction entries generalizing output w with
  | nil => exact ⟨[], [], [], rfl, .done w, fun _ _ _ => rfl⟩
  | cons entry others ih =>
    obtain ⟨key, source⟩ := entry
    unfold addEntries
    split
    · rename_i p readable
      have steps := addMember_stepwise (orderly w.types) this output key p.kind.obeys_anything
      obtain ⟨part, heard⟩ := steps.hears (w := w) rfl
      exact .bind (.read output readable heard) ih
    · rename_i unreadable
      have after : w.after (reportNotProperty key) = w.announce (Serializer.refusal key) :=
        World.after_report w _ _
      exact .bind (fun turns => .refuse unreadable (after ▸ turns)) fun _ => ih output

theorem addMember_keys {w w' : World} {output table : Table Json} {key : String} {p : Property}
    (ran : (addMember e this output key p).run w = .ok table w') :
    table.keys ⊆ key :: output.keys := by
  unfold addMember at ran
  obtain ⟨v, w₁, _, ran⟩ := World.run_bind_ok ran
  obtain ⟨json, w₂, _, ran⟩ := World.run_bind_ok ran
  cases json with
  | none =>
    cases ran
    exact List.subset_cons_self _ _
  | some json =>
    cases ran
    rw [Table.keys_insert]
    split
    · exact List.subset_cons_self _ _
    · simp

theorem addEntries_keys {w w' : World} {output table : Table Json}
    {entries : List (String × Option String)}
    (ran : (addEntries e this type output entries).run w = .ok table w') {key : String}
    (shown : key ∈ table.keys) :
    key ∈ output.keys ∨ ∃ source, (key, source) ∈ entries ∧ (source.bind type.readable?).isSome := by
  induction entries generalizing output w with
  | nil =>
    cases ran
    exact .inl shown
  | cons entry others ih =>
    obtain ⟨name, source⟩ := entry
    unfold addEntries at ran
    split at ran
    · rename_i p readable
      obtain ⟨output', w₁, first, ran⟩ := World.run_bind_ok ran
      rcases ih ran with there | ⟨other, mem, read⟩
      · rcases List.mem_cons.mp (addMember_keys first there) with rfl | before
        · exact .inr ⟨source, List.mem_cons_self, Option.isSome_of_eq_some readable⟩
        · exact .inl before
      · exact .inr ⟨other, List.mem_cons_of_mem _ mem, read⟩
    · obtain ⟨_, w₁, _, ran⟩ := World.run_bind_ok ran
      exact (ih ran).imp id fun ⟨other, mem, read⟩ => ⟨other, List.mem_cons_of_mem _ mem, read⟩

end

theorem Serializer.entries?_source {serializer : Serializer}
    {entries : List (String × Option String)} (listed : serializer.entries? = some entries)
    {key : String} {source other : Option String} (mem : (key, source) ∈ entries)
    (mem' : (key, other) ∈ entries) : source = other := by
  cases serializer with
  | basic | exclusive _ => cases listed
  | map table =>
    cases listed
    have same := List.inj_on_of_nodup_map table.keys_nodup mem mem' rfl
    exact (Prod.mk.inj same).2
  | inclusive keys =>
    cases listed
    obtain ⟨_, _, eq⟩ := List.mem_map.mp mem
    obtain ⟨_, _, eq'⟩ := List.mem_map.mp mem'
    cases eq
    cases eq'
    rfl

theorem Serializer.serialize_listed {serializer : Serializer}
    {entries : List (String × Option String)} (listed : serializer.entries? = some entries)
    (e : Engine) (this : Value) (type : EntityType) :
    serializer.serialize e this type = addEntries e this type .empty entries := by
  cases serializer with
  | basic | exclusive _ => cases listed
  | map _ | inclusive _ =>
    cases listed
    rfl

/-- The modes agree. An instance is serialized in any state, with any getters. Leaving keys out
does all that listing the other readable names in declaration order does: the same object or the
same error, and the same state with the same reports. The basic mode leaves nothing out, and
listing distinct keys is mapping each to itself. The entries of a listing have their turns one
after the other, up to where an error stops; the turn of an entry that names no readable property
makes one report and shows nothing. -/
theorem serializer_modes_agree {e : Engine} (orderly : e.Orderly) (r : Ref) (w : World) :
    let run (serializer : Serializer) : Ending (Table Json) :=
      ((Operation.serialize serializer r).performWith e).run w
    let type := w.typeOf r
    (∀ keys, run (.exclusive keys) = run (.inclusive (type.readableNames.filter (· ∉ keys)))) ∧
      run .basic = run (.exclusive []) ∧
      (∀ keys : List String, keys.Nodup →
        run (.inclusive keys) = run (.map (Table.ofList (keys.map fun key => (key, some key))))) ∧
      ∀ serializer entries, serializer.entries? = some entries →
        (∃ served rest parts, entries = served ++ rest ∧
          Turns e (.entity r) type w served parts (run serializer).world ∧
          w.Hears (run serializer).world parts.flatten ∧
          ∀ output w', run serializer = .ok output w' → rest = []) ∧
        ∀ output w', run serializer = .ok output w' → ∀ key source, (key, source) ∈ entries →
          source.bind type.readable? = none → key ∉ output.keys := by
  intro run type
  have run_eq (serializer : Serializer) : run serializer =
      (serializer.serialize e (.entity r) type).run w := rfl
  refine ⟨fun keys => ?_, rfl, fun keys distinct => ?_, fun serializer entries listed => ⟨?_, ?_⟩⟩
  · rw [run_eq, run_eq, serialize_exclusive]
  · rw [run_eq, run_eq, serialize_inclusive _ _ distinct]
  · rw [run_eq, Serializer.serialize_listed listed]
    obtain ⟨served, rest, parts, split, turns, whole⟩ :=
      addEntries_serves orderly .empty entries w
    exact ⟨served, rest, parts, split, turns, turns.hears, whole⟩
  · intro output w' ran key source mem unreadable shown
    rw [run_eq, Serializer.serialize_listed listed] at ran
    rcases addEntries_keys ran shown with before | ⟨other, mem', readable⟩
    · cases before
    · rw [← Serializer.entries?_source listed mem mem', unreadable] at readable
      cases readable

/-- An instance with a constant and a property that is only written. Leaving the constant out
shows nothing; listing both and one name more shows the constant and makes two reports. -/
theorem modes_of_readable_and_unreadable :
    let type := { EntityType.bare "T" with
      properties := Table.ofList
        [("a", ⟨0, .constant (.bool true)⟩), ("b", ⟨1, .writeOnly (.slot (.named "_b"))⟩)] }
    let w := { World.initial with types := #[type], objects := #[.entity ⟨0, .empty, []⟩] }
    let run serializer := (Operation.serialize serializer 0).perform.run w
    run (.exclusive ["a"]) = .ok .empty w ∧
      run (.inclusive ["b", "a", "c"]) =
        .ok (Table.empty.insert "a" (.bool true))
          ((w.announce (Serializer.refusal "b")).announce (Serializer.refusal "c")) ∧
      run (.map (Table.ofList [("b", some "b"), ("a", some "a"), ("c", some "c")])) =
        run (.inclusive ["b", "a", "c"]) := by
  intro type w run
  obtain ⟨excluding, -, listing, -⟩ := serializer_modes_agree (engine_orderly w.depth) 0 w
  refine ⟨?_, rfl, (listing ["b", "a", "c"] (by decide)).symm⟩
  rw [show run (.exclusive ["a"]) = _ from excluding ["a"]]
  rfl

end Accessors
