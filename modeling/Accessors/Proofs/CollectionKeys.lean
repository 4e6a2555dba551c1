import Accessors.Proofs.DisplayRoundTrip
import Accessors.Proofs.TextPositions

/-! Utilities of collections and keyed access. The keys that are listed of a sequence are the texts of
its positions and those of a record are its names; each is a key of the collection and leads to
the value that is listed at the same place. Main statement: `listed_keys_lead_to_values`. -/

namespace Accessors

namespace Number
variable {n : Nat}

theorem toList_toString (n : Nat) : (toString n).toList = digitsOf n :=
  String.toList_ofList

theorem toString_injective {m : Nat} (same : toString m = toString n) : m = n := by
  rw [← digitsValue_digitsOf m, ← toList_toString, same, toList_toString, digitsValue_digitsOf]

theorem int64?_toString (fits : fitsInt64 n = true) :
    int64? (Text.trim (toString n).toList) = some (n : Int) := by
  have read := int64?_withSign false (digitsOf_ne_nil n) (areDigits_digitsOf n)
  rw [digitsValue_digitsOf, Option.filter_some] at read
  rw [toList_toString]
  exact read.trans (if_pos fits)

theorem throughDouble_eq_self (exact : n ≤ 2 ^ 53) : throughDouble n = n := by
  rcases Nat.lt_or_eq_of_le exact with small | rfl
  · have same : roundedInteger n = n := roundedInteger_eq_self small
    unfold throughDouble leastInt64 greatestInt64
    rw [Int.natAbs_natCast, same, decide_eq_false (Int.not_lt.mpr (Int.natCast_nonneg n))]
    show max _ (min _ (n : Int)) = n
    omega
  · decide +kernel

end Number

open Number

theorem Value.ofNat_eq_zero_iff {n : Nat} : Value.ofNat n = .number 0 ↔ n = 0 := by
  have zero : Value.number 0 = .ofInt 0 := congrArg Value.number (by decide +kernel)
  calc Value.ofNat n = .number 0
    _ ↔ Number.ofNat n = Number.ofInt 0 := by
      rw [zero]
      exact iff_of_eq (Value.number.injEq ..)
    _ ↔ n = 0 := (ofNat_eq_ofInt_iff (.inl rfl)).trans Int.natCast_eq_zero

section
variable {i : Nat}

theorem position?_toString (exact : i ≤ 2 ^ 53) (size : Nat) :
    position? (.str (toString i)) size = some i := by
  have fits : fitsInt64 i = true := by
    unfold fitsInt64 leastInt64 greatestInt64
    apply decide_eq_true
    omega
  unfold position? indexKey?
  dsimp only
  rw [int64?_toString fits, Option.map_some, throughDouble_eq_self exact, Option.bind_some,
    if_pos (Int.natCast_nonneg i), if_pos (Int.natCast_nonneg i), Int.toNat_natCast]

theorem isPlainKey_toString (i : Nat) : (Value.str (toString i)).isPlainKey = true := by
  obtain ⟨first, rest, digits⟩ := List.exists_cons_of_ne_nil (digitsOf_ne_nil i)
  have digit : isDigit first = true := areDigits_digitsOf i first (digits ▸ List.mem_cons_self)
  have starts : (toString i).toList = withSign false (first :: rest) :=
    (toList_toString i).trans digits
  exact decide_eq_true (Instruction.parse_of_starts starts (.inl digit))

theorem getElem?_indexTexts {n : Nat} {key : Value} (listed : (indexTexts n)[i]? = some key) :
    i < n ∧ key = .str (toString i) := by
  unfold indexTexts at listed
  rw [List.getElem?_map, Option.map_eq_some_iff] at listed
  obtain ⟨j, there, rfl⟩ := listed
  obtain ⟨lt, rfl⟩ := List.getElem?_eq_some_iff.mp there
  rw [List.length_range] at lt
  exact ⟨lt, congrArg (fun n => Value.str (toString n)) (List.getElem_range _)⟩

end

namespace World

def Yields (w : World) (name : String) (args : List Value) (v : Value) (w' : World) : Prop :=
  ∃ utility, Utility.find? name = some utility ∧ (utility args).run w = .ok v w'

theorem Yields.unique {w : World} {name : String} {args : List Value} {v v' : Value} {u u' : World}
    (h : w.Yields name args v u) (h' : w.Yields name args v' u') : v = v' ∧ u = u' := by
  obtain ⟨_, found, ran⟩ := h
  obtain ⟨_, found', ran'⟩ := h'
  cases found.symm.trans found'
  exact EStateM.Result.ok.inj (ran.symm.trans ran')

/-- What the utilities tell of a collection: keys and values, one for one, of which keyed access
knows. The text of a position leads to it only as far as the position is exactly a double. -/
structure Lists (w : World) (c : Value) (keys values : List Value) : Prop where
  size : w.Yields "size" [c] (.ofNat values.length) w
  length : keys.length = values.length
  distinct : keys.Nodup
  leads : ∀ i key item, keys[i]? = some key → values[i]? = some item →
    (∀ r, c = .seq r → i ≤ 2 ^ 53) →
    w.Yields "has" [c, key] (.bool true) w ∧
      (∀ next, (accessKey c key [] next).run w = .ok (.read item) w) ∧
      (key.isPlainKey = true → ∀ e, (evaluate e c key [] none).run w = .ok (.read item) w)
  plain : ∀ r, c = .seq r → ∀ key ∈ keys, key.isPlainKey = true
  ends : ∃ empty first last, w.Yields "isEmpty" [c] (.bool empty) w ∧
    w.Yields "first" [c] first w ∧ w.Yields "last" [c] last w ∧
    (empty = true ↔ Value.ofNat values.length = .number 0) ∧
    (empty = true → first = .undefined ∧ last = .undefined) ∧
    (empty = false → values.head? = some first ∧ values.getLast? = some last)

theorem collection_record (w : World) (r : Ref) :
    (w.collection (.record r)).map some = (w.fields r).keys.map (w.fields r).get? :=
  (w.fields r).map_some_values

theorem collection_str (w : World) (s : String) :
    (∀ item ∈ w.collection (.str s), ∃ c, item = .str (String.ofList [c])) ∧
      String.join ((w.collection (.str s)).map w.display) = s := by
  refine ⟨fun item mem => ?_, (w.join_characters s.toList).trans String.ofList_toList⟩
  obtain ⟨c, _, rfl⟩ := List.mem_map.mp mem
  exact ⟨c, rfl⟩

section
variable (w : World) (c : Value)

theorem yields_keys :
    w.Yields "keys" [c] (.seq w.objects.size) (w.push (.seq (w.keysOf c).toArray)) :=
  ⟨_, rfl, rfl⟩

theorem yields_values :
    w.Yields "values" [c] (.seq w.objects.size) (w.push (.seq (w.collection c).toArray)) :=
  ⟨_, rfl, rfl⟩

theorem yields_size : w.Yields "size" [c] (.ofNat (w.collection c).length) w :=
  ⟨_, rfl, rfl⟩

theorem yields_isEmpty : w.Yields "isEmpty" [c] (.bool (w.collection c).isEmpty) w :=
  ⟨_, rfl, rfl⟩

theorem yields_first : w.Yields "first" [c] ((w.collection c).headD .undefined) w :=
  ⟨_, rfl, rfl⟩

theorem yields_last : w.Yields "last" [c] ((w.collection c).getLast?.getD .undefined) w :=
  ⟨_, rfl, rfl⟩

theorem yields_has (key : Value) : w.Yields "has" [c, key] (.bool (w.hasKey c key)) w :=
  ⟨_, rfl, rfl⟩

theorem nodup_keysOf : (w.keysOf c).Nodup := by
  have texts (n : Nat) : (indexTexts n).Nodup :=
    List.nodup_range.map fun _ _ same => toString_injective (Value.str.inj same)
  cases c with
  | seq r => exact texts _
  | record r => exact (w.fields r).keys_nodup.map fun _ _ same => Value.str.inj same
  | str s => exact texts _
  | _ => exact List.nodup_nil

end

section
variable {w : World} {c : Value}

theorem Collection.length_keysOf (collection : w.Collection c) :
    (w.keysOf c).length = (w.collection c).length := by
  cases collection with
  | seq => exact (List.length_map _).trans List.length_range
  | record =>
    show (List.map _ (List.map _ _)).length = (List.map _ _).length
    rw [List.length_map, List.length_map, List.length_map]

theorem Collection.getKey_listed (collection : w.Collection c) {i : Nat} {key item : Value}
    (listed : (w.keysOf c)[i]? = some key) (value : (w.collection c)[i]? = some item)
    (exact : ∀ r, c = .seq r → i ≤ 2 ^ 53) : w.hasKey c key = true ∧ w.getKey c key = item := by
  cases collection with
  | @seq r items there =>
    obtain ⟨lt, rfl⟩ := getElem?_indexTexts listed
    have resolves := position?_toString (exact r rfl) (w.sequence r).size
    have held : (w.sequence r)[i]? = some item := by
      rw [← Array.getElem?_toList]
      exact value
    constructor
    · unfold hasKey
      simpa only [resolves, Option.any_some, Bool.or_eq_true, decide_eq_true_eq] using .inr lt
    · unfold getKey
      simp only [if_neg (text?_of_position resolves), resolves, Option.bind_some, held,
        Option.getD_some]
  | @record r fields there =>
    -- both lists go through the entries
    have entries : w.keysOf (.record r) = (w.fields r).entries.map fun entry => .str entry.1 :=
      List.map_map
    rw [entries, List.getElem?_map] at listed
    change ((w.fields r).entries.map Prod.snd)[i]? = some item at value
    rw [List.getElem?_map] at value
    obtain ⟨entry, there, rfl⟩ := Option.map_eq_some_iff.mp listed
    rw [there] at value
    obtain rfl := Option.some.inj value
    have found := (w.fields r).get?_of_mem (List.mem_of_getElem? there)
    show ((w.fields r).get? (w.display (.str entry.1))).isSome = true ∧
      ((w.fields r).get? (w.display (.str entry.1))).getD .undefined = entry.2
    rw [w.display_str, found]
    exact ⟨rfl, rfl⟩

theorem Collection.passes {key : Value} (collection : w.Collection c)
    (plain : key.isPlainKey = true) : w.Passes c key :=
  w.passes_container collection.isContainer plain

theorem Collection.lists (collection : w.Collection c) :
    w.Lists c (w.keysOf c) (w.collection c) where
  size := w.yields_size c
  length := collection.length_keysOf
  distinct := w.nodup_keysOf c
  leads i key item listed value exact := by
    obtain ⟨has, gets⟩ := collection.getKey_listed listed value exact
    refine ⟨has ▸ w.yields_has c key, fun next => ?_, fun plain e => ?_⟩
    · rw [accessKey_read, gets]
    · rw [evaluate_read e (collection.passes plain), gets]
  plain r is key listed := by
    subst is
    obtain ⟨i, _, rfl⟩ := List.mem_map.mp listed
    exact isPlainKey_toString i
  ends := by
    refine ⟨_, _, _, w.yields_isEmpty c, w.yields_first c, w.yields_last c, ?_, fun none => ?_,
      fun some => ?_⟩
    · rw [Value.ofNat_eq_zero_iff, List.length_eq_zero_iff, List.isEmpty_iff]
    · rw [List.isEmpty_iff.mp none]
      exact ⟨rfl, rfl⟩
    · obtain ⟨first, rest, items⟩ :=
        List.exists_cons_of_ne_nil (List.isEmpty_eq_false_iff.mp some)
      rw [items, List.getLast?_cons]
      exact ⟨rfl, rfl⟩

theorem Collection.push (collection : w.Collection c) (o : Object) :
    (w.push o).Collection c ∧ (w.push o).keysOf c = w.keysOf c ∧
      (w.push o).collection c = w.collection c := by
  have kept {r : Ref} {here : Object} (there : w.objects[r]? = some here) :
      (w.push o).objects[r]? = some here := by
    rw [getElem?_push, if_neg (Nat.ne_of_lt (Array.getElem?_eq_some_iff.mp there).1), there]
  cases collection with
  | @seq r items there =>
    have same : (w.push o).items r = w.items r := by
      unfold World.items
      rw [sequence_of there, sequence_of (kept there)]
    have texts : indexTexts ((w.push o).items r).length = indexTexts (w.items r).length := by
      rw [same]
    exact ⟨.seq (kept there), texts, same⟩
  | @record r fields there =>
    have same : (w.push o).fields r = w.fields r := by
      rw [fields_of there, fields_of (kept there)]
    exact ⟨.record (kept there), congrArg (fun fields => fields.keys.map Value.str) same,
      congrArg Table.values same⟩

end

end World

open World in
/-- The keys and the values that the utilities give of a sequence or record are as many as its size
says, and no key occurs twice. Each key is one that the collection has, and keyed access through it
gets the very value at its place in the other list; evaluating a key that is no instruction does the
same, and the text of a position is none. The first and the last item are the ends of the list of
values, or undefined if the collection is empty, just when its size is zero. The text of a position
passes through a double, so that above `2 ^ 53`, where no memory reaches, it may go to the position
beside. -/
theorem listed_keys_lead_to_values {w : World} {c : Value} (collection : w.Collection c) :
    ∃ k v w₁ w₂, w.Yields "keys" [c] (.seq k) w₁ ∧ w₁.Yields "values" [c] (.seq v) w₂ ∧
      w₂.Lists c (w₂.items k) (w₂.items v) := by
  obtain ⟨first, keys, _⟩ := collection.push (.seq (w.keysOf c).toArray)
  generalize made : w.push (.seq (w.keysOf c).toArray) = w₁ at first keys
  obtain ⟨second, keys', values⟩ := first.push (.seq (w₁.collection c).toArray)
  refine ⟨_, _, w₁, _, made ▸ w.yields_keys c, w₁.yields_values c, ?_⟩
  have older : w.objects.size ≠ w₁.objects.size := by
    rw [← made]
    simp [World.push]
  have listed : w₁.items w.objects.size = w.keysOf c := by
    rw [← made, items_push]
  have both := second.lists
  rw [keys', values, keys] at both
  rwa [items_push, items_push_of_ne older, listed]

open World in
/-- Two texts in a sequence: the text of the second position reads the second one. -/
theorem second_text_listed :
    let w : World := { World.initial with objects := #[.seq #[.str "a", .str "b"]] }
    w.Collection (.seq 0) ∧ ∃ w₂, w₂.Lists (.seq 0) [.str "0", .str "1"] [.str "a", .str "b"] ∧
      w₂.Yields "has" [.seq 0, .str "1"] (.bool true) w₂ ∧
      (evaluate (engine 1) (.seq 0) (.str "1") [] none).run w₂ = .ok (.read (.str "b")) w₂ := by
  intro w
  have collection : w.Collection (.seq 0) := .seq rfl
  obtain ⟨k, v, w₁, w₂, ⟨_, keys, ran⟩, ⟨_, values, ran'⟩, lists⟩ :=
    listed_keys_lead_to_values collection
  cases keys
  cases ran
  cases values
  cases ran'
  obtain ⟨has, _, reads⟩ := lists.leads 1 (.str "1") (.str "b") rfl rfl (fun _ _ => by decide)
  exact ⟨collection, _, lists, has, reads (by decide) _⟩

end Accessors
