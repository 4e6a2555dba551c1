import Accessors.Proofs.KeyedPath
import Accessors.Proofs.Replacement

/-! Setting by key and getting by key. What was set at a text or a number is got there, and nothing
else of the value is different; a sequence can be set at its positions and at its length, where it
grows. Main statement: `set_then_get`. -/

namespace Accessors

theorem position?_append {key : Value} {n : Nat} (last : position? key n = some n) :
    position? key (n + 1) = some n := by
  obtain ⟨index, reads, placed⟩ := Option.bind_eq_some_iff.mp last
  refine Option.bind_eq_some_iff.mpr ⟨index, reads, ?_⟩
  by_cases front : 0 ≤ index
  · simpa only [front, if_true] using placed
  · -- a position counted from the end is never the length
    simp only [front, if_false] at placed
    split at placed
    · have := Option.some.inj placed
      omega
    · cases placed

theorem position?_length (n : Nat) : position? (.str "length") n = none := rfl

theorem text?_of_position {key : Value} {n place : Nat} (resolves : position? key n = some place) :
    key.text? ≠ some "length" := by
  intro text
  cases key with
  | str s =>
    cases text
    rw [position?_length] at resolves
    cases resolves
  | _ => cases text

namespace World
variable {w : World} {r : Ref} {key v c : Value}

theorem object_update {o : Object} (there : w.objects[r]? = some o) (o' : Object) :
    (w.update r fun _ => o').objects[r]? = some o' := by
  rw [getElem?_update, if_pos rfl, there]
  rfl

/-- A handle of a sequence, of a record or of an instance leads to one. -/
def Live (w : World) : Value → Prop
  | .seq r => ∃ items, w.objects[r]? = some (.seq items)
  | .record r => ∃ fields, w.objects[r]? = some (.record fields)
  | .entity r => ∃ inst, w.objects[r]? = some (.entity inst)
  | _ => True

/-- What a change at a key leaves as it was. A sequence has its items at all other positions, and
one more only if the key was its length. A record has its other entries in their order, and a new
key comes last. An instance has its type and its other slots. No other object is touched. -/
inductive ChangedAt (w : World) (key : Value) : Value → World → Prop
  | seq {r : Ref} {items items' : Array Value} (there : w.objects[r]? = some (.seq items))
      (others : ∀ i, position? key items.size ≠ some i → items'[i]? = items[i]?)
      (size : items'.size =
        items.size + if position? key items.size = some items.size then 1 else 0) :
    ChangedAt w key (.seq r) (w.update r fun _ => .seq items')
  | record {r : Ref} {fields fields' : Table Value} (there : w.objects[r]? = some (.record fields))
      (others : ∀ name, name ≠ w.display key → fields'.get? name = fields.get? name)
      (order : fields'.keys =
        if w.display key ∈ fields.keys then fields.keys else fields.keys ++ [w.display key]) :
    ChangedAt w key (.record r) (w.update r fun _ => .record fields')
  | entity {r : Ref} {inst inst' : Instance} (there : w.objects[r]? = some (.entity inst))
      (type : inst'.typeId = inst.typeId)
      (others : ∀ slot, slot ≠ .named (w.display key) → inst'.slot? slot = inst.slot? slot) :
    ChangedAt w key (.entity r) (w.update r fun _ => .entity inst')

theorem Assigned.changedAt {o : Object} (assigned : w.Assigned key v c r o) :
    w.ChangedAt key c (w.update r fun _ => o) := by
  cases assigned with
  | entry there =>
    refine .record there (fun name other => ?_) (Table.keys_insert _ _ _)
    rw [Table.get?_insert, if_neg other]
  | @item _ items place there resolves within =>
    have kept : position? key items.size ≠ some items.size := fun last =>
      Nat.ne_of_lt within (Option.some.inj (resolves.symm.trans last))
    refine .seq there (fun i other => ?_) ?_
    · rw [Array.getElem?_setIfInBounds_ne fun same : place = i => other (same ▸ resolves)]
    · rw [Array.size_setIfInBounds, if_neg kept]
      rfl
  | @last _ items there resolves =>
    refine .seq there (fun i other => ?_) ?_
    · rw [Array.getElem?_push, if_neg fun same : i = items.size => other (same ▸ resolves)]
    · rw [Array.size_push, if_pos resolves]

theorem Assigned.got {o : Object} (assigned : w.Assigned key v c r o) (isKey : key.isKey = true) :
    (w.update r fun _ => o).getKey c key = v ∧ (w.update r fun _ => o).hasKey c key = true := by
  have shown := w.display_key (w.update r fun _ => o) isKey
  cases assigned with
  | @entry _ fields there =>
    have now := fields_of (object_update there (.record (fields.insert (w.display key) v)))
    unfold getKey hasKey Table.has
    simp only [shown, now, Table.get?_insert, if_true]
    exact ⟨rfl, rfl⟩
  | @item _ items place there resolves within =>
    have now := sequence_of (object_update there (.seq (items.setIfInBounds place v)))
    unfold getKey hasKey
    simp only [now, Array.size_setIfInBounds, resolves, if_neg (text?_of_position resolves)]
    simp [within]
  | @last _ items there resolves =>
    have now := sequence_of (object_update there (.seq (items.push v)))
    unfold getKey hasKey
    simp only [now, Array.size_push, position?_append resolves,
      if_neg (text?_of_position resolves)]
    simp

end World

section
variable {w : World} {key : Value}

theorem setKey_entity {r : Ref} {inst : Instance} (there : w.objects[r]? = some (.entity inst))
    (key v : Value) :
    (setKey (.entity r) key v).run w =
      .ok () (w.update r fun _ => .entity (inst.setSlot (.named (w.display key)) v)) :=
  congrArg (EStateM.Result.ok ()) (World.update_eq there _)

theorem setKey_entity_got {r : Ref} {inst : Instance} (there : w.objects[r]? = some (.entity inst))
    (isKey : key.isKey = true) (v : Value) :
    let w' := w.update r fun _ => .entity (inst.setSlot (.named (w.display key)) v)
    w'.getKey (.entity r) key = v ∧ w'.hasKey (.entity r) key = true := by
  intro w'
  have held : w'.slot? r (.named (w.display key)) = some v := by
    unfold World.slot?
    rw [World.instance?_eq, World.object_update there]
    exact inst.slot?_setSlot (.named (w.display key)) v
  unfold World.getKey World.hasKey World.field World.hasMember
  simp only [w.display_key w' isKey, held]
  simp

theorem setKey_entity_changedAt {r : Ref} {inst : Instance}
    (there : w.objects[r]? = some (.entity inst)) (key v : Value) :
    w.ChangedAt key (.entity r)
      (w.update r fun _ => .entity (inst.setSlot (.named (w.display key)) v)) :=
  .entity there rfl fun _ other => inst.slot?_setSlot_other (Ne.symm other) v

theorem setKey_unkeyed {c : Value} (unkeyed : c.isKeyed = false) (v : Value) :
    (setKey c key v).run w =
      .error (.error (.invalidKey (w.display key ++ (" on a " ++ c.kindName)))) w := by
  rw [← String.append_assoc]
  cases c <;> first | rfl | cases unkeyed

theorem World.getKey_of_not_hasKey {c : Value} (absent : w.hasKey c key = false) :
    w.getKey c key = .undefined := by
  cases c with
  | seq r =>
    unfold World.hasKey at absent
    simp only [Bool.or_eq_false_iff, beq_eq_false_iff_ne] at absent
    obtain ⟨other, nowhere⟩ := absent
    unfold World.getKey
    simp only [if_neg other]
    cases resolves : position? key (w.sequence r).size with
    | none => rfl
    | some place =>
      rw [resolves] at nowhere
      have past : (w.sequence r).size ≤ place := by simpa using nowhere
      simp [Array.getElem?_eq_none past]
  | record r =>
    have none : (w.fields r).get? (w.display key) = none :=
      Option.isNone_iff_eq_none.mp (Option.isSome_eq_false_iff.mp absent)
    unfold World.getKey
    simp only [none]
    rfl
  | entity r =>
    unfold World.hasKey World.hasMember at absent
    simp only [Bool.or_eq_false_iff] at absent
    have none := Option.isNone_iff_eq_none.mp (Option.isSome_eq_false_iff.mp absent.2)
    unfold World.getKey World.field
    simp only [none]
    rfl
  | _ => rfl

def World.Sets (w : World) (c key v : Value) (ending : Ending Unit) : Prop :=
  ∃ w', ending = .ok () w' ∧ w'.getKey c key = v ∧ w'.hasKey c key = true ∧ w.ChangedAt key c w'

/-- Nothing can be set there: the key is no position of a sequence, or there are no entries. -/
def World.Unsettable (w : World) (c key : Value) : Prop :=
  w.Misplaced key c ∨ c.isKeyed = false

theorem World.Collection.setKey_ends {c : Value} (collection : w.Collection c)
    (isKey : key.isKey = true) (v : Value) :
    ¬ w.Unsettable c key ∧ w.Sets c key v ((setKey c key v).run w) ∨
      w.Unsettable c key ∧ ∃ more,
        (setKey c key v).run w = .error (.error (.invalidKey (w.display key ++ more))) w := by
  rcases setKey_run collection key v with ⟨r, o, assigned, ran⟩ | ⟨misplaced, more, ran⟩
  · obtain ⟨got, has⟩ := assigned.got isKey
    refine .inl ⟨?_, _, ran, got, has, assigned.changedAt⟩
    rintro (misplaced | unkeyed)
    · exact misplaced.not_assigned assigned
    · cases collection <;> cases unkeyed
  · exact .inr ⟨.inl misplaced, more, ran⟩

theorem setKey_ends {c : Value} (live : w.Live c) (isKey : key.isKey = true) (v : Value) :
    ¬ w.Unsettable c key ∧ w.Sets c key v ((setKey c key v).run w) ∨
      w.Unsettable c key ∧ ∃ more,
        (setKey c key v).run w = .error (.error (.invalidKey (w.display key ++ more))) w := by
  cases c with
  | seq r =>
    obtain ⟨items, there⟩ := live
    exact World.Collection.setKey_ends (.seq there) isKey v
  | record r =>
    obtain ⟨fields, there⟩ := live
    exact World.Collection.setKey_ends (.record there) isKey v
  | entity r =>
    obtain ⟨inst, there⟩ := live
    obtain ⟨got, has⟩ := setKey_entity_got there isKey v
    have settable : ¬ w.Unsettable (.entity r) key := by rintro (⟨⟨⟩⟩ | ⟨⟨⟩⟩)
    have changed := setKey_entity_changedAt there key v
    exact .inl ⟨settable, _, setKey_entity there key v, got, has, changed⟩
  | _ => exact .inr ⟨.inr rfl, _, setKey_unkeyed rfl v⟩

end

/-- A value is set at a text or a number. If that succeeds, the key is there and gets the very value,
and the rest is as it was. It fails exactly where a sequence has no such position, its length
included, or where there are no entries at all; then nothing changes. Getting at a key that is not
there gives undefined. -/
theorem set_then_get {w : World} {c key : Value} (live : w.Live c) (isKey : key.isKey = true)
    (v : Value) :
    (∀ w', (setKey c key v).run w = .ok () w' →
      w'.getKey c key = v ∧ w'.hasKey c key = true ∧ w.ChangedAt key c w') ∧
    ((∃ stop w', (setKey c key v).run w = .error stop w') ↔ w.Unsettable c key) ∧
    (∀ stop w', (setKey c key v).run w = .error stop w' →
      w' = w ∧ ∃ more, stop = .error (.invalidKey (w.display key ++ more))) ∧
    (w.hasKey c key = false → w.getKey c key = .undefined) := by
  rcases setKey_ends live isKey v with ⟨settable, w₁, ran, after⟩ | ⟨nowhere, more, ran⟩
  · rw [ran]
    refine ⟨fun w' set => ?_, ⟨?_, fun nowhere => absurd nowhere settable⟩,
      fun stop w' failed => ?_, World.getKey_of_not_hasKey⟩
    · cases set
      exact after
    · rintro ⟨_, _, ⟨⟩⟩
    · cases failed
  · rw [ran]
    refine ⟨fun w' set => ?_, ⟨fun _ => nowhere, fun _ => ⟨_, _, rfl⟩⟩, fun stop w' failed => ?_,
      World.getKey_of_not_hasKey⟩
    · cases set
    · cases failed
      exact ⟨rfl, more, rfl⟩

/-- A sequence of two numbers, and a key that is its length. -/
theorem set_at_length_appends :
    let w : World := { World.initial with objects := #[.seq #[.number 1, .number 2]] }
    ∃ w', (setKey (.seq 0) (.str " 2 ") (.str "x")).run w = .ok () w' ∧
      w'.getKey (.seq 0) (.str " 2 ") = .str "x" ∧ w'.hasKey (.seq 0) (.str " 2 ") = true ∧
      (∃ stop w', (setKey (.seq 0) (.str "-3") .null).run w = .error stop w') := by
  intro w
  have live : w.Live (.seq 0) := ⟨_, rfl⟩
  have isKey (text : String) : (Value.str text).isKey = true := rfl
  obtain ⟨set, _⟩ := set_then_get live (isKey " 2 ") (.str "x")
  obtain ⟨_, refused, _⟩ := set_then_get live (isKey "-3") .null
  obtain ⟨got, has, _⟩ := set _ rfl
  refine ⟨_, rfl, got, has, refused.mpr (.inl (.mk rfl fun place found => ?_))⟩
  cases (rfl : position? (.str "-3") 2 = none).symm.trans found

end Accessors
