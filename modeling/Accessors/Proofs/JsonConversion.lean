import Accessors.Proofs.Conversion
import Accessors.Proofs.Doubles
import Accessors.Proofs.Operations

/-! The JSON form of values that contain no entity. Such a value that can be followed to its
ends is converted without a change to the world: what is undefined is left out of records and
becomes null in sequences, and everything else keeps its place. Reading the JSON form back
loses no more than what JSON cannot say: what is undefined, dates, and numbers that are not
finite. -/

namespace Accessors

theorem forall₂_of_exists {α β : Type} {Q : α → β → Prop} {xs : List α}
    (each : ∀ x ∈ xs, ∃ y, Q x y) : ∃ ys, List.Forall₂ Q xs ys := by
  induction xs with
  | nil => exact ⟨[], .nil⟩
  | cons x xs ih =>
    obtain ⟨here, later⟩ := List.forall_mem_cons.mp each
    obtain ⟨y, hy⟩ := here
    obtain ⟨ys, hys⟩ := ih later
    exact ⟨y :: ys, .cons hy hys⟩

theorem isEqv_of_forall₂ {α : Type} {eqv : α → α → Bool} {xs ys : List α}
    (h : List.Forall₂ (fun x y => eqv x y = true) xs ys) : xs.isEqv ys eqv = true := by
  induction h with
  | nil => rfl
  | cons here _ ih => rw [List.isEqv_cons_cons, here, ih, Bool.and_self]

namespace World
variable {w : World} {n d : Nat} {v : Value}

def Converts (w : World) (n : Nat) (v : Value) (json : Option Json) : Prop :=
  ∀ d, n ≤ d → (valueToJson (engine d) v).run w = .ok json w

theorem Converts.toJson {json : Option Json} (h : w.Converts n v json) (enough : n + 1 ≤ d) :
    ((engine d).toJson v).run w = .ok json w := by
  obtain ⟨d, rfl⟩ : ∃ k, d = k + 1 := ⟨d - 1, by omega⟩
  exact h d (by omega)

theorem Converts.perform {json : Option Json} (h : w.Converts n v json) (deep : n ≤ w.depth) :
    (Operation.valueToJson v).perform.run w = .ok json w := by
  rw [Operation.perform_run]
  exact h w.depth deep

def MembersOf (w : World) (n : Nat) (entries : List (String × Value))
    (members : List (String × Json)) : Prop :=
  List.Forall₂ (fun entry member => member.1 = entry.1 ∧ w.Converts n entry.2 (some member.2))
    (entries.filter fun entry => !entry.2.isUndefined) members

inductive Renders (w : World) : Nat → Value → Option Json → Prop
  | undefined {n : Nat} : Renders w n .undefined none
  | null {n : Nat} : Renders w n .null (some .null)
  | bool {n : Nat} (b : Bool) : Renders w n (.bool b) (some (.bool b))
  | number {n : Nat} (x : Float) : Renders w n (.number x) (some (numberToJson x))
  | str {n : Nat} (s : String) : Renders w n (.str s) (some (.str s))
  | date {n : Nat} (r : Ref) : Renders w n (.date r) (some (.str (w.moment r).display))
  | seq {n : Nat} {r : Ref} {items : List (Option Json)}
      (each : List.Forall₂ (w.Converts n) (w.items r) items) :
      Renders w (n + 1) (.seq r) (some (.array (items.map (·.getD .null))))
  | record {n : Nat} {r : Ref} {members : List (String × Json)}
      (each : w.MembersOf n (w.fields r).entries members) :
      Renders w (n + 1) (.record r) (some (.object members))

theorem itemsToJson_run {items : List Value} {jsons : List (Option Json)}
    (each : List.Forall₂ (w.Converts n) items jsons) (enough : n + 1 ≤ d) :
    (itemsToJson (engine d) items).run w = .ok (jsons.map (·.getD .null)) w := by
  induction each with
  | nil => rfl
  | cons here _ ih =>
    unfold itemsToJson
    rw [EStateM.run_bind, here.toJson enough]
    dsimp only
    rw [EStateM.run_bind, ih]
    rfl

theorem fieldsToJson_run {entries : List (String × Value)} {jsons : List (Option Json)}
    (each : List.Forall₂ (fun entry json => w.Converts n entry.2 json ∧
      (json = none ↔ entry.2 = .undefined)) entries jsons) :
    ∃ members, w.MembersOf n entries members ∧
      ∀ d, n + 1 ≤ d → (fieldsToJson (engine d) entries).run w = .ok members w := by
  induction each with
  | nil => exact ⟨[], .nil, fun _ _ => rfl⟩
  | @cons entry json entries jsons here _ ih =>
    obtain ⟨members, rest, run⟩ := ih
    obtain ⟨key, value⟩ := entry
    obtain ⟨converts, absent⟩ := here
    cases json with
    | none =>
      obtain rfl : value = .undefined := absent.mp rfl
      refine ⟨members, rest, fun d enough => ?_⟩
      unfold fieldsToJson
      rw [EStateM.run_bind, converts.toJson enough]
      exact run d enough
    | some json =>
      have defined : value.isUndefined = false := by
        cases value with
        | undefined => cases absent.mpr rfl
        | _ => rfl
      refine ⟨(key, json) :: members, ?_, fun d enough => ?_⟩
      · unfold MembersOf
        rw [List.filter_cons, defined]
        exact .cons ⟨rfl, converts⟩ rest
      · unfold fieldsToJson
        rw [EStateM.run_bind, converts.toJson enough]
        dsimp only
        rw [EStateM.run_bind, run d enough]
        rfl

theorem Renders.isNone {json : Option Json} (h : w.Renders n v json) :
    json = none ↔ v = .undefined := by
  cases h <;> simp

theorem Fathoms.converts (h : w.Fathoms n v) (free : w.EntityFree v) :
    ∃ json, w.Converts n v json ∧ w.Renders n v json := by
  induction h with
  | @scalar n v bare =>
    cases v with
    | undefined => exact ⟨_, fun _ _ => rfl, .undefined⟩
    | null => exact ⟨_, fun _ _ => rfl, .null⟩
    | bool b => exact ⟨_, fun _ _ => rfl, .bool b⟩
    | number x => exact ⟨_, fun _ _ => rfl, .number x⟩
    | str s => exact ⟨_, fun _ _ => rfl, .str s⟩
    | seq r | record r | date r | entity r => cases bare
  | @object n v r handle lt inner ih =>
    have each (u : Value) (held : u ∈ w.held r) :
        ∃ json, w.Converts n u json ∧ w.Renders n u json :=
      ih u held (free.inside handle held)
    cases v with
    | date s => exact ⟨_, fun _ _ => rfl, .date s⟩
    | entity s => cases free _ (.self _)
    | seq s =>
      cases handle
      obtain ⟨items, converted⟩ := forall₂_of_exists fun u mem =>
        (each u (mem_held_of_items mem)).imp fun _ => And.left
      refine ⟨some (.array (items.map (·.getD .null))), fun d enough => ?_, .seq converted⟩
      have run := itemsToJson_run converted enough
      show (itemsToJson (engine d) (w.items r) >>= fun items =>
        pure (some (Json.array items))).run w = _
      rw [EStateM.run_bind, run]
      rfl
    | record s =>
      cases handle
      have entry (entry : String × Value) (mem : entry ∈ (w.fields r).entries) :
          ∃ json, w.Converts n entry.2 json ∧ (json = none ↔ entry.2 = .undefined) :=
        (each entry.2 (mem_held_of_fields (List.mem_map_of_mem mem))).imp fun _ both =>
          ⟨both.1, both.2.isNone⟩
      obtain ⟨jsons, converted⟩ := forall₂_of_exists entry
      obtain ⟨members, ofEntries, run⟩ := fieldsToJson_run converted
      refine ⟨some (.object members), fun d enough => ?_, .record ofEntries⟩
      show (fieldsToJson (engine d) (w.fields r).entries >>= fun members =>
        pure (some (Json.object members))).run w = _
      rw [EStateM.run_bind, run d enough]
      rfl
    | _ => cases handle

end World

/-! Reading JSON back: integers and other numbers to numbers, arrays to sequences and objects to
records. -/

mutual

def Json.read : Json → Action Value
  | .null => pure .null
  | .bool b => pure (.bool b)
  | .int i => pure (.ofInt i)
  | .number x => pure (.number x)
  | .str s => pure (.str s)
  | .array items => do newSeq (← Json.readItems items)
  | .object members => do newRecord (Table.ofList (← Json.readMembers members))

def Json.readItems : List Json → Action (List Value)
  | [] => pure []
  | item :: rest => return (← item.read) :: (← Json.readItems rest)

def Json.readMembers : List (String × Json) → Action (List (String × Value))
  | [] => pure []
  | (key, json) :: rest => return (key, ← json.read) :: (← Json.readMembers rest)

end

def Value.Representable : Value → Prop
  | .undefined | .date _ => False
  | .number x => Number.isFinite x = true
  | _ => True

theorem Value.Representable.isUndefined {v : Value} (h : v.Representable) :
    v.isUndefined = false := by
  cases v <;> first | rfl | cases h

namespace World

/-- Two values of one world that are alike the given number of levels down: equal scalars,
sequences of alike items, and records of alike values under the same keys in the same order. -/
def Resembles (w : World) : Nat → Value → Value → Prop
  | _, .null, .null => True
  | _, .bool a, .bool b => a = b
  | _, .number x, .number y => (x == y) = true
  | _, .str s, .str t => s = t
  | levels + 1, .seq r, .seq s => List.Forall₂ (w.Resembles levels) (w.items r) (w.items s)
  | levels + 1, .record r, .record s =>
    List.Forall₂ (fun a b => a.1 = b.1 ∧ w.Resembles levels a.2 b.2)
      (w.fields r).entries (w.fields s).entries
  | _, _, _ => False

theorem Resembles.equal {w : World} {n levels : Nat} {u v : Value} (h : w.Resembles n u v)
    (enough : n ≤ levels) : w.equalWithin levels u v = true := by
  induction n generalizing u v levels with
  | zero => cases u <;> cases v <;> simp_all [Resembles, equalWithin]
  | succ n ih =>
    obtain ⟨levels, rfl⟩ : ∃ k, levels = k + 1 := ⟨levels - 1, by omega⟩
    cases u <;> cases v
    case seq.seq r s =>
      have alike : List.Forall₂ (w.Resembles n) (w.items r) (w.items s) := h
      have sizes : (w.sequence r).size = (w.sequence s).size := alike.length_eq
      have items : (w.items r).isEqv (w.items s) (w.equalWithin levels) = true :=
        isEqv_of_forall₂ (alike.imp fun _ _ same => ih same (by omega))
      simp [equalWithin, sizes, items]
    case record.record r s =>
      have alike : List.Forall₂ (fun a b => a.1 = b.1 ∧ w.Resembles n a.2 b.2)
        (w.fields r).entries (w.fields s).entries := h
      have sizes : (w.fields r).size = (w.fields s).size := alike.length_eq
      have entries : (w.fields r).entries.all fun entry =>
          ((w.fields s).get? entry.1).any (w.equalWithin levels entry.2) := by
        refine List.all_eq_true.mpr fun entry mem => ?_
        obtain ⟨other, mem', key, same⟩ := exists_of_forall₂ alike.flip mem
        rw [key, Table.get?_of_mem mem']
        exact ih same (by omega)
      simp [equalWithin, sizes, entries]
    all_goals simp_all [Resembles, equalWithin]

def Restores (w₀ : World) (n : Nat) (v : Value) (json : Json) : Prop :=
  ∀ w, w₀.Grows w → ∃ u w', json.read.run w = .ok u w' ∧ w.Grows w' ∧
    ∀ w₂, w'.Grows w₂ → w₂.Resembles n u v

theorem readItems_run {w₀ w : World} {n : Nat} {vs : List Value} {jsons : List Json}
    (each : List.Forall₂ (w₀.Restores n) vs jsons) (grows : w₀.Grows w) :
    ∃ us w', (Json.readItems jsons).run w = .ok us w' ∧ w.Grows w' ∧
      ∀ w₂, w'.Grows w₂ → List.Forall₂ (w₂.Resembles n) us vs := by
  induction each generalizing w with
  | nil => exact ⟨[], w, rfl, .refl w, fun _ _ => .nil⟩
  | cons here _ ih =>
    obtain ⟨u, w₁, first, grown, alike⟩ := here w grows
    obtain ⟨us, w₂, rest, grown', others⟩ := ih (grows.trans grown)
    refine ⟨u :: us, w₂, ?_, grown.trans grown', fun w₃ later =>
      .cons (alike w₃ (grown'.trans later)) (others w₃ later)⟩
    unfold Json.readItems
    rw [EStateM.run_bind, first]
    dsimp only
    rw [EStateM.run_bind, rest]
    rfl

theorem readMembers_run {w₀ w : World} {n : Nat} {entries : List (String × Value)}
    {members : List (String × Json)}
    (each : List.Forall₂ (fun entry member => member.1 = entry.1 ∧
      w₀.Restores n entry.2 member.2) entries members) (grows : w₀.Grows w) :
    ∃ read w', (Json.readMembers members).run w = .ok read w' ∧ w.Grows w' ∧
      ∀ w₂, w'.Grows w₂ →
        List.Forall₂ (fun a b => a.1 = b.1 ∧ w₂.Resembles n a.2 b.2) read entries := by
  induction each generalizing w with
  | nil => exact ⟨[], w, rfl, .refl w, fun _ _ => .nil⟩
  | @cons entry member _ _ here _ ih =>
    obtain ⟨key, json⟩ := member
    obtain ⟨u, w₁, first, grown, alike⟩ := here.2 w grows
    obtain ⟨read, w₂, rest, grown', others⟩ := ih (grows.trans grown)
    refine ⟨(key, u) :: read, w₂, ?_, grown.trans grown', fun w₃ later =>
      .cons ⟨here.1, alike w₃ (grown'.trans later)⟩ (others w₃ later)⟩
    unfold Json.readMembers
    rw [EStateM.run_bind, first]
    dsimp only
    rw [EStateM.run_bind, rest]
    rfl

theorem Grows.pushed {w w' : World} {o : Object} (plain : o.inst? = none)
    (grows : (w.push o).Grows w') : w'.objects[w.objects.size]? = some o := by
  have here : (w.push o).objects[w.objects.size]? = some o := by
    rw [getElem?_push, if_pos rfl]
  have bare : (w.push o).typeId? w.objects.size = none := by
    rw [typeId?_eq, here]
    cases o <;> first | rfl | cases plain
  rw [grows.others _ (Nat.not_le.mpr (w.lt_push o)) bare, here]

theorem Converts.unique {w : World} {n : Nat} {v : Value} {json other : Option Json}
    (h : w.Converts n v json) (h' : w.Converts n v other) : json = other := by
  have same := (h n (Nat.le_refl n)).symm.trans (h' n (Nat.le_refl n))
  cases same
  rfl

theorem restores_number {w₀ : World} {n : Nat} {x : Float} (finite : Number.isFinite x = true) :
    w₀.Restores n (.number x) (numberToJson x) := by
  intro w _
  unfold numberToJson
  cases safe : Number.safeInteger? x with
  | some i =>
    refine ⟨.ofInt i, w, rfl, .refl w, fun w₂ _ => ?_⟩
    cases n <;> exact Number.ofInt_of_safeInteger safe
  | none =>
    refine ⟨.number x, w, ?_, .refl w, fun w₂ _ => ?_⟩
    · rw [if_pos finite]
      rfl
    · cases n <;> exact Number.beq_self finite

theorem restores_seq {w₀ : World} {n : Nat} {r : Ref} {jsons : List Json}
    (h : w₀.Fathoms (n + 1) (.seq r)) (each : List.Forall₂ (w₀.Restores n) (w₀.items r) jsons) :
    w₀.Restores (n + 1) (.seq r) (.array jsons) := by
  intro w grows
  obtain ⟨us, w₁, run, grown, alike⟩ := readItems_run each grows
  have made : w₁.Grows (w₁.push (.seq us.toArray)) := .push w₁ rfl
  refine ⟨.seq w₁.objects.size, w₁.push (.seq us.toArray), ?_, grown.trans made, fun w₂ later => ?_⟩
  · unfold Json.read
    rw [EStateM.run_bind, run]
    rfl
  · have before : w₂.items r = w₀.items r := by
      have since := (grows.trans grown).trans (made.trans later)
      unfold items
      rw [(since.sameOn h).sequence r (.start rfl)]
    have new : w₂.items w₁.objects.size = us := by
      unfold items sequence
      rw [Grows.pushed rfl later]
    show List.Forall₂ (w₂.Resembles n) (w₂.items w₁.objects.size) (w₂.items r)
    rw [before, new]
    exact alike w₂ (made.trans later)

theorem restores_record {w₀ : World} {n : Nat} {r : Ref} {members : List (String × Json)}
    (h : w₀.Fathoms (n + 1) (.record r))
    (each : List.Forall₂ (fun entry member => member.1 = entry.1 ∧ w₀.Restores n entry.2 member.2)
      (w₀.fields r).entries members) :
    w₀.Restores (n + 1) (.record r) (.object members) := by
  intro w grows
  obtain ⟨read, w₁, run, grown, alike⟩ := readMembers_run each grows
  have made : w₁.Grows (w₁.push (.record (Table.ofList read))) := .push w₁ rfl
  refine ⟨.record w₁.objects.size, w₁.push (.record (Table.ofList read)), ?_, grown.trans made,
    fun w₂ later => ?_⟩
  · unfold Json.read
    rw [EStateM.run_bind, run]
    rfl
  · have since := alike w₂ (made.trans later)
    have names : (w₀.fields r).entries.map Prod.fst = read.map Prod.fst :=
      map_eq_of_forall₂ (since.imp fun _ _ both => both.1.symm)
    have before : w₂.fields r = w₀.fields r :=
      (((grows.trans grown).trans (made.trans later)).sameOn h).fields r (.start rfl)
    have new : (w₂.fields w₁.objects.size).entries = read := by
      unfold World.fields
      rw [Grows.pushed rfl later]
      exact Table.entries_ofList (names ▸ (w₀.fields r).keys_nodup)
    show List.Forall₂ (fun a b => a.1 = b.1 ∧ w₂.Resembles n a.2 b.2)
      (w₂.fields w₁.objects.size).entries (w₂.fields r).entries
    rw [before, new]
    exact since

theorem Fathoms.restores {w : World} {n : Nat} {v : Value} {json : Json} (h : w.Fathoms n v)
    (free : w.EntityFree v) (representable : ∀ u, w.Contains v u → u.Representable)
    (converts : w.Converts n v (some json)) : w.Restores n v json := by
  induction h generalizing json with
  | @scalar n v bare =>
    obtain ⟨other, converts', renders⟩ := (Fathoms.scalar bare).converts free
    obtain rfl := converts.unique converts'
    cases renders with
    | null => exact fun w _ => ⟨.null, w, rfl, .refl w, fun _ _ => by cases n <;> trivial⟩
    | bool b => exact fun w _ => ⟨.bool b, w, rfl, .refl w, fun _ _ => by cases n <;> rfl⟩
    | number x => exact restores_number (representable _ (.self _))
    | str s => exact fun w _ => ⟨.str s, w, rfl, .refl w, fun _ _ => by cases n <;> rfl⟩
    | date r | seq _ | record _ => cases bare
  | @object n v r handle lt inner ih =>
    have whole : w.Fathoms (n + 1) v := .object handle lt inner
    obtain ⟨other, converts', renders⟩ := whole.converts free
    obtain rfl := converts.unique converts'
    -- what has no form is undefined, and nothing representable is
    have present {u : Value} (held : u ∈ w.held r) {json : Option Json}
        (there : w.Converts n u json) : w.Restores n u (json.getD .null) := by
      cases json with
      | some json =>
        exact ih u held (free.inside handle held) (fun _ contains =>
          representable _ (.inside handle held contains)) there
      | none =>
        obtain ⟨other, converts', renders⟩ := (inner u held).converts (free.inside handle held)
        obtain rfl := there.unique converts'
        obtain rfl := renders.isNone.mp rfl
        cases representable _ (.inside handle held (.self _))
    cases v with
    | seq s =>
      cases handle
      cases renders with
      | seq converted =>
        refine restores_seq whole ((List.forall₂_map_right_iff).mpr ?_)
        exact ((List.forall₂_and_left _ _).mpr ⟨fun _ => mem_held_of_items, converted⟩).imp
          fun _ _ both => present both.1 both.2
    | record s =>
      cases handle
      cases renders with
      | record converted =>
        have held (entry : String × Value) (mem : entry ∈ (w.fields r).entries) :
            entry.2 ∈ w.held r :=
          mem_held_of_fields (List.mem_map_of_mem mem)
        have kept : ((w.fields r).entries.filter fun entry => !entry.2.isUndefined) =
            (w.fields r).entries := by
          refine List.filter_eq_self.mpr fun entry mem => ?_
          have said := representable entry.2 (.inside rfl (held entry mem) (.self _))
          rw [said.isUndefined]
          rfl
        unfold MembersOf at converted
        rw [kept] at converted
        refine restores_record whole ?_
        exact ((List.forall₂_and_left _ _).mpr ⟨held, converted⟩).imp
          fun _ _ both => ⟨both.2.1, present both.1 both.2.2⟩
    | date s => cases representable _ (.self _)
    | entity s => cases free _ (.self _)
    | _ => cases handle

end World

/-- Conversion to JSON loses nothing that JSON can say. A value that contains no entity and not
itself is converted without a change to the world, and only what is undefined has no form. A
sequence becomes an array with the form of each item, null for none; a record becomes an object
with the forms of what is not undefined, under the same keys in the same order. And when the value
contains nothing undefined, no date and only finite numbers, reading its form back makes a value
that is equal to it and has the keys of all records in the same order. -/
theorem json_form_restores {w : World} {v : Value} (finite : w.Finite v) (free : w.EntityFree v) :
    let convert (v : Value) : Ending (Option Json) := (Operation.valueToJson v).perform.run w
    ∃ json, convert v = .ok json w ∧ (json = none ↔ v = .undefined) ∧
      (∀ r, v = .seq r → ∃ items, json = some (.array items) ∧
        List.Forall₂ (fun item form => ∃ json, convert item = .ok json w ∧ form = json.getD .null)
          (w.items r) items) ∧
      (∀ r, v = .record r → ∃ members, json = some (.object members) ∧
        List.Forall₂ (fun entry member => member.1 = entry.1 ∧
            convert entry.2 = .ok (some member.2) w)
          ((w.fields r).entries.filter fun entry => !entry.2.isUndefined) members) ∧
      ((∀ u, w.Contains v u → u.Representable) → ∃ form, json = some form ∧
        ∃ u w', form.read.run w = .ok u w' ∧ w.Grows w' ∧ w'.equal u v = true ∧
          ∃ levels, w'.Resembles levels u v) := by
  intro convert
  obtain ⟨n, fathomed, bounded⟩ : ∃ n, w.Fathoms n v ∧ n ≤ w.levels :=
    ⟨w.levels, finite.choose_spec.levels, Nat.le_refl _⟩
  have deep : n ≤ w.depth := Nat.le_trans bounded (Nat.le_add_left _ callDepth)
  obtain ⟨json, converts, renders⟩ := fathomed.converts free
  refine ⟨json, converts.perform deep, renders.isNone, ?_, ?_, fun representable => ?_⟩
  · rintro r rfl
    cases renders with
    | seq each =>
      refine ⟨_, rfl, List.forall₂_map_right_iff.mpr (each.imp fun item json converts => ?_)⟩
      exact ⟨json, converts.perform (Nat.le_of_succ_le deep), rfl⟩
  · rintro r rfl
    cases renders with
    | record each =>
      refine ⟨_, rfl, each.imp fun entry member both => ⟨both.1, ?_⟩⟩
      exact both.2.perform (Nat.le_of_succ_le deep)
  · cases json with
    | none =>
      obtain rfl := renders.isNone.mp rfl
      cases representable _ (.self _)
    | some form =>
      obtain ⟨u, w', run, grows, alike⟩ :=
        fathomed.restores free representable converts w (.refl w)
      have same := alike w' (.refl w')
      have equal : w'.equal u v = true := same.equal (Nat.le_trans bounded grows.size)
      exact ⟨form, rfl, u, w', run, grows, equal, n, same⟩

/-- A record of a number and a sequence: its JSON form, which is read back as an equal record. -/
theorem record_form_restores :
    let w := { World.initial with objects :=
      #[.record (Table.ofList [("x", .ofInt 1), ("y", .seq 1)]), .seq #[.bool true]] }
    let form := Json.object [("x", .int 1), ("y", .array [.bool true])]
    w.Finite (.record 0) ∧ w.EntityFree (.record 0) ∧
      (∀ u, w.Contains (.record 0) u → u.Representable) ∧
      (Operation.valueToJson (.record 0)).perform.run w = .ok (some form) w ∧
      ∃ u w', form.read.run w = .ok u w' ∧ w'.equal u (.record 0) = true := by
  intro w form
  have outer : w.held 0 = [.ofInt 1, .seq 1] := rfl
  have inner : w.held 1 = [.bool true] := rfl
  have contained (u : Value) (h : w.Contains (.record 0) u) :
      u = .record 0 ∨ u = .ofInt 1 ∨ u = .seq 1 ∨ u = .bool true := by
    refine h.within (P := fun u => u = .record 0 ∨ u = .ofInt 1 ∨ u = .seq 1 ∨ u = .bool true)
      ?_ (.inl rfl)
    rintro v (rfl | rfl | rfl | rfl) r handle item held
    · cases handle
      rw [outer] at held
      simp only [List.mem_cons, List.not_mem_nil, or_false] at held
      tauto
    · cases handle
    · cases handle
      rw [inner, List.mem_singleton] at held
      tauto
    · cases handle
  have finite : w.Finite (.record 0) := by
    refine ⟨2, .object rfl (by decide) fun u held => ?_⟩
    rw [outer] at held
    simp only [List.mem_cons, List.not_mem_nil, or_false] at held
    rcases held with rfl | rfl
    · exact .scalar rfl
    · refine .object rfl (by decide) fun u held => ?_
      rw [inner, List.mem_singleton] at held
      exact held ▸ .scalar rfl
  have free : w.EntityFree (.record 0) := by
    intro u contains
    rcases contained u contains with rfl | rfl | rfl | rfl <;> rfl
  have representable : ∀ u, w.Contains (.record 0) u → u.Representable := by
    intro u contains
    rcases contained u contains with rfl | rfl | rfl | rfl
    · trivial
    · exact (by decide : Number.isFinite (Number.ofInt 1) = true)
    · trivial
    · trivial
  have converted : (Operation.valueToJson (.record 0)).perform.run w = .ok (some form) w := rfl
  obtain ⟨json, run, _, _, _, restores⟩ := json_form_restores finite free
  obtain ⟨_, rfl, u, w', read, _, equal, _⟩ := restores representable
  have same := converted.symm.trans run
  cases same
  exact ⟨finite, free, representable, converted, u, w', read, equal⟩

end Accessors
