import Accessors.Proofs.Region

/-! The functions that values come with stay in every region that their receiver and their
arguments are within: built-in methods, utilities, copies, constructions, the parts of
dates, and assignment by key. None of them writes a slot unless the receiver is an entity. -/

namespace Accessors
variable {R : Region}

theorem Region.within_getD {x : Option Value} (h : ∀ v, x = some v → R.within v) :
    R.within (x.getD .undefined) := by
  cases x with
  | none => trivial
  | some v => exact h v rfl

theorem Region.within_argument {args : List Value} (h : ∀ v ∈ args, R.within v) (i : Nat) :
    R.within (argument args i) := by
  unfold argument
  rw [List.getD_eq_getElem?_getD]
  exact within_getD fun v found => h v (List.mem_of_getElem? found)

theorem Region.within_headD {items : List Value} (h : ∀ v ∈ items, R.within v) :
    R.within (items.headD .undefined) := by
  cases items with
  | nil => trivial
  | cons v _ => exact h v (by simp)

theorem Region.within_getLast {items : List Value} (h : ∀ v ∈ items, R.within v) :
    R.within (items.getLast?.getD .undefined) :=
  within_getD fun v found => h v (List.mem_of_getLast? found)

theorem Region.within_characters (s : List Char) : ∀ v ∈ characters s, R.within v := by
  simp [characters, Region.within]

theorem Region.Sealed.collection {w : World} (sealed : R.Sealed w) {v : Value}
    (h : R.within v) : ∀ item ∈ w.collection v, R.within item := by
  cases v with
  | seq r => exact sealed.items h
  | record r => exact sealed.fields h
  | str s => exact Region.within_characters s.toList
  | _ => simp [World.collection]

theorem Region.Sealed.itemsOf {w : World} (sealed : R.Sealed w) {v : Value}
    (h : R.within v) : ∀ item ∈ SequenceMethod.itemsOf w v, R.within item := by
  cases v with
  | seq r => exact sealed.items h
  | _ => simp [SequenceMethod.itemsOf]

@[simp] theorem SequenceMethod.itemsOf_hearing (w : World) (c : Channel) (h : History)
    (v : Value) : itemsOf (w.hearing c h) v = itemsOf w v := by
  cases v <;> rfl

@[simp] theorem TextMethod.needle_hearing (w : World) (c : Channel) (h : History)
    (args : List Value) : needle (w.hearing c h) args = needle w args := by
  simp [needle]

theorem World.mem_slice {w : World} {xs : List Value} {args : List Value} {v : Value}
    (h : v ∈ w.slice xs args) : v ∈ xs :=
  List.mem_of_mem_take (List.mem_of_mem_drop h)

theorem Region.within_distinct {w : World} {items : List Value} (h : ∀ v ∈ items, R.within v) :
    ∀ v ∈ w.distinct items, R.within v := by
  refine List.foldlRecOn (motive := fun kept => ∀ v ∈ kept, R.within v) items _ (by simp)
    fun kept ih item mem => ?_
  split
  · exact ih
  · intro v hv
    rcases List.mem_append.mp hv with hv | hv
    · exact ih v hv
    · exact List.mem_singleton.mp hv ▸ h item mem

theorem Region.within_extreme {w : World} {better : Float → Float → Bool} {items : List Value}
    (h : ∀ v ∈ items, R.within v) : R.within (w.extreme better items) := by
  refine within_getD (List.foldlRecOn (motive := fun best => ∀ v, best = some v → R.within v)
    items _ (by simp) fun best ih item mem => ?_)
  have this : R.within item := h item mem
  dsimp only
  repeat' split
  all_goals first | exact ih | (rintro v ⟨⟩; exact this)

theorem Region.within_values_insert {fields : Table Value} {name : String} {v : Value}
    (h : ∀ u ∈ fields.values, R.within u) (hv : R.within v) :
    ∀ u ∈ (fields.insert name v).values, R.within u :=
  fun u mem => (Table.mem_values_insert mem).elim (fun eq => eq ▸ hv) (h u)

theorem Region.within_ofList {entries : List (String × Value)}
    (h : ∀ entry ∈ entries, R.within entry.2) :
    ∀ u ∈ (Table.ofList entries).values, R.within u := by
  intro u mem
  obtain ⟨entry, given, rfl⟩ := Table.mem_values_ofList mem
  exact h entry given

def Builtin.Stays (R : Region) (f : Builtin) : Prop :=
  ∀ this args, R.within this → (∀ v ∈ args, R.within v) → Local R R.within (f this args)

theorem TextMethod.within_pieces (s : List Char) (separator : Option (List Char)) :
    ∀ v ∈ pieces s separator, R.within v := by
  intro v h
  unfold pieces at h
  split at h
  · rw [List.mem_singleton.mp h]
    trivial
  · exact Region.within_characters s v h
  · obtain ⟨piece, _, rfl⟩ := List.mem_map.mp h
    trivial

theorem TextMethod.stays {name : String} {f : Builtin} (found : find? name = some f) :
    f.Stays R := by
  intro this args _ _
  unfold find? at found
  split at found
  all_goals cases found
  case h_1 | h_2 | h_3 => exact .pure trivial
  case h_4 | h_6 | h_7 | h_8 | h_9 | h_12 => exact .get (by simp) fun w _ => .pure trivial
  case h_5 =>
    refine .get (by simp) fun w _ => ?_
    split <;> exact .pure trivial
  case h_10 =>
    refine .get (by simp) fun w _ => ?_
    dsimp only
    split
    · exact .pure trivial
    · exact .fail _
  case h_11 => exact .get (by simp) fun w _ => .newSeq (within_pieces _ _)

namespace SequenceMethod

theorem push_stays : push.Stays R := by
  intro this args within given
  cases this with
  | seq r =>
    refine .bind (.changeItems within fun items held v h => ?_) fun _ _ =>
      .get (by simp) fun w _ => .pure trivial
    rw [Array.toList_append] at h
    exact (List.mem_append.mp h).elim (held v) (given v)
  | _ => exact .pure trivial

theorem pop_stays : pop.Stays R := by
  intro this args within _
  cases this with
  | seq r =>
    refine .get (by simp) fun w sealed => ?_
    refine .bind (.changeItems within fun items held v h => ?_) fun _ _ => .pure ?_
    · rw [Array.toList_pop] at h
      exact held v (List.dropLast_subset _ h)
    · refine Region.within_getD fun v found => sealed.items within v ?_
      exact Array.mem_toList_iff.mpr (Array.mem_of_back? found)
  | _ => exact .pure trivial

theorem reverse_stays : reverse.Stays R := by
  intro this args within _
  cases this with
  | seq r =>
    refine .bind (.changeItems within fun items held v h => ?_) fun _ _ => .pure within
    exact held v (by simpa using h)
  | _ => exact .pure within

theorem concat_stays : concat.Stays R := by
  intro this args within given
  refine .get (fun w c h => ?_) fun w sealed => .newSeq fun v h => ?_
  · simp only [itemsOf_hearing, World.items_hearing]
  · rcases List.mem_append.mp h with h | h
    · exact sealed.itemsOf within v h
    · obtain ⟨arg, mem, h⟩ := List.mem_flatMap.mp h
      split at h
      · exact sealed.items (given _ mem) v h
      · exact List.mem_singleton.mp h ▸ given _ mem

theorem stays {name : String} {f : Builtin} (found : find? name = some f) : f.Stays R := by
  unfold find? at found
  split at found
  all_goals cases found
  case h_1 => exact push_stays
  case h_2 => exact pop_stays
  case h_3 =>
    intro this args within _
    exact .get (by simp) fun w sealed =>
      .newSeq fun v h => sealed.itemsOf within v (World.mem_slice h)
  case h_4 =>
    intro this args _ _
    refine .get (by simp) fun w _ => ?_
    split <;> exact .pure trivial
  case h_5 =>
    intro this args _ _
    exact .get (by simp) fun w _ => .pure trivial
  case h_6 =>
    intro this args _ _
    exact .get (by simp) fun w _ => .pure trivial
  case h_7 => exact reverse_stays
  case h_8 => exact concat_stays

end SequenceMethod

theorem builtin_stays {receiver : Value} {name : String} {f : Builtin}
    (found : builtin? receiver name = some f) : f.Stays R := by
  unfold builtin? at found
  split at found
  case h_1 =>
    cases found
    intro this args _ _
    exact .get (by simp) fun w _ => .pure trivial
  case h_2 =>
    cases found
    intro this args within _
    exact .pure within
  case h_3 => exact TextMethod.stays found
  case h_4 =>
    cases found
    intro this args _ _
    refine .get (by simp) fun w _ => ?_
    dsimp only
    split <;> split
    all_goals first | exact .pure trivial | exact .fail _
  case h_5 => exact SequenceMethod.stays found
  case h_6 =>
    cases found
    intro this args _ _
    exact .get (by simp) fun w _ => .pure trivial
  case h_7 => cases found

def Utility.Stays (R : Region) (f : Utility) : Prop :=
  ∀ args, (∀ v ∈ args, R.within v) → Local R R.within (f args)

theorem shallowCopy_stays {v : Value} (within : R.within v) :
    Local R R.within (shallowCopy v) := by
  refine .get (fun w c h => by cases v <;> rfl) fun w sealed => ?_
  cases v with
  | seq r => exact .newSeq (sealed.items within)
  | record r => exact .newRecord (sealed.fields within)
  | date r => exact .newDate _
  | _ => exact .pure within

theorem deepCopyWithin_stays (levels : Nat) {v : Value} (within : R.within v) :
    Local R R.within (deepCopyWithin levels v) := by
  induction levels generalizing v with
  | zero =>
    unfold deepCopyWithin
    refine .get (fun w c h => by cases v <;> rfl) fun w sealed => ?_
    cases v with
    | seq _ | record _ => exact .pure trivial
    | date r => exact .newDate _
    | _ => exact .pure within
  | succ levels ih =>
    unfold deepCopyWithin
    refine .get (fun w c h => by cases v <;> rfl) fun w sealed => ?_
    cases v with
    | seq r =>
      exact .bind (.mapM fun item mem => ih (sealed.items within item mem)) fun items held =>
        .newSeq held
    | record r =>
      refine .bind (Q := R.within) (.mapM (Q := fun entry => R.within entry.2) fun entry mem => ?_)
        fun entries held => .newRecord (Region.within_ofList held)
      exact .bind (ih (sealed.fields within _ (List.mem_map_of_mem mem))) fun _ copied =>
        .pure copied
    | date r => exact .newDate _
    | _ => exact .pure within

theorem deepCopy_stays {v : Value} (within : R.within v) : Local R R.within (deepCopy v) :=
  .get (fun _ _ _ => rfl) fun _ _ => deepCopyWithin_stays _ within

theorem ClonePolicy.apply_stays (policy : ClonePolicy) {v : Value} (within : R.within v) :
    Local R R.within (policy.apply v) := by
  cases policy with
  | identity => exact .pure within
  | shallow => exact shallowCopy_stays within
  | deep => exact deepCopy_stays within

namespace Utility

theorem collected_stays {f : List Value → Value}
    (h : ∀ items, (∀ v ∈ items, R.within v) → R.within (f items)) : (collected f).Stays R :=
  fun _ given => .get (by simp) fun _ sealed =>
    .pure (h _ (sealed.collection (Region.within_argument given 0)))

theorem values_stays : values.Stays R := fun _ given =>
  .get (by simp) fun _ sealed => .newSeq (sealed.collection (Region.within_argument given 0))

theorem keys_stays : keys.Stays R := by
  intro args given
  refine .get (by simp) fun w sealed => .newSeq ?_
  cases argument args 0 with
  | seq _ | str _ | record _ => simp [World.keysOf, indexTexts, Region.within]
  | _ => simp [World.keysOf]

theorem contains_stays : contains.Stays R := by
  intro args given
  refine .get (fun w c h => ?_) fun w sealed => ?_
  · cases argument args 0 <;> simp
  · cases argument args 0 <;> exact .pure trivial

theorem has_stays : has.Stays R := fun _ _ => .get (by simp) fun _ _ => .pure trivial

theorem extreme_stays (better : Float → Float → Bool) : (extreme better).Stays R :=
  fun _ given => .get (by simp) fun _ sealed =>
    .pure (Region.within_extreme (sealed.collection (Region.within_argument given 0)))

theorem sum_stays : sum.Stays R := fun _ _ => .get (by simp) fun _ _ => .pure trivial

theorem uniq_stays : uniq.Stays R := fun _ given => .get (by simp) fun _ sealed =>
  .newSeq (Region.within_distinct (sealed.collection (Region.within_argument given 0)))

theorem stays {name : String} {f : Utility} (found : find? name = some f) : f.Stays R := by
  unfold find? at found
  split at found
  all_goals cases found
  case h_1 | h_14 => exact collected_stays fun _ _ => trivial
  case h_2 => exact keys_stays
  case h_3 | h_4 => exact values_stays
  case h_5 => exact collected_stays fun _ => Region.within_headD
  case h_6 => exact collected_stays fun _ => Region.within_getLast
  case h_7 | h_8 => exact contains_stays
  case h_9 => exact has_stays
  case h_10 | h_11 => exact extreme_stays _
  case h_12 => exact sum_stays
  case h_13 => exact uniq_stays
  case h_15 => exact fun _ given => shallowCopy_stays (Region.within_argument given 0)
  case h_16 => exact fun _ given => deepCopy_stays (Region.within_argument given 0)

end Utility

theorem Region.Sealed.arrayItems {w : World} (sealed : R.Sealed w) {args : List Value}
    (given : ∀ v ∈ args, R.within v) : ∀ v ∈ w.arrayItems args, R.within v := by
  unfold World.arrayItems
  split
  · simp [Region.within]
  · rename_i r
    exact sealed.items (given (.seq r) (by simp))
  · rename_i r
    exact sealed.fields (given (.record r) (by simp))
  · exact given

theorem NativeType.construct_stays (t : NativeType) {args : List Value}
    (given : ∀ v ∈ args, R.within v) : Local R R.within (t.construct args) := by
  refine .get (fun w c h => ?_) fun w sealed => ?_
  · have shown : (w.hearing c h).display = w.display := funext fun v => by simp
    have counted : (w.hearing c h).toNumber = w.toNumber := funext fun v => by simp
    have led : (w.hearing c h).leadingInteger = w.leadingInteger := funext fun v => by simp
    cases t <;> simp [shown, counted, led]
  · cases t with
    | object | plainObject =>
      dsimp only
      split
      · rename_i r rest
        exact .newRecord (sealed.fields (given (.record r) (by simp)))
      · exact .newRecord (by simp [Table.values, Table.entries, Table.empty])
    | array => exact .newSeq (sealed.arrayItems given)
    | date =>
      exact .bind (.attempt _) fun _ _ => .newDate _
    | _ => exact .pure trivial

theorem dateHandle_eq {v : Value} {r : Ref} (h : dateHandle v = .ok r) : v = .date r := by
  cases v <;> cases h
  rfl

theorem DateField.read_stays (field : DateField) (this : Value) :
    Local R R.within (field.read this) := by
  refine .bind (.ofExcept (P := fun _ => True) fun _ _ => trivial) fun r _ => ?_
  refine .get (fun _ _ _ => rfl) fun w _ => ?_
  cases field <;> exact .pure trivial

theorem DateField.write_stays (field : DateField) {this : Value} (value : Value)
    (within : R.within this) : Local R (fun _ => True) (field.write this value) := by
  refine .bind (.ofExcept (P := R.inside) fun r h => ?_) fun r inside => ?_
  · rw [dateHandle_eq h] at within
    exact within
  · refine .get (fun w c h => ?_) fun w _ => ?_
    · cases field <;> simp
    · cases field with
      | part p =>
        exact .bind (.attempt _) fun _ _ => .setMoment _ inside
      | weekday => exact .pure trivial
      | time =>
        exact .bind (.attempt _) fun _ _ => .setMoment _ inside

theorem Region.Sealed.getKey {w : World} (sealed : R.Sealed w) {v : Value} (key : Value)
    (within : R.within v) (plain : v.isEntity = false) : R.within (w.getKey v key) := by
  cases v with
  | seq r =>
    unfold World.getKey
    dsimp only
    split
    · trivial
    · refine Region.within_getD fun item found => sealed.items within item ?_
      obtain ⟨place, _, found⟩ := Option.bind_eq_some_iff.mp found
      exact Array.mem_toList_iff.mpr (Array.mem_of_getElem? found)
  | record r =>
    refine Region.within_getD fun item found => sealed.fields within item ?_
    exact Table.mem_values_of_get? found
  | entity r => cases plain
  | _ => exact trivial

theorem setKey_stays {v key value : Value} (within : R.within v) (plain : v.isEntity = false)
    (hvalue : R.within value) : Local R (fun _ => True) (setKey v key value) := by
  refine .get (fun w c h => ?_) fun w _ => ?_
  · cases v <;> simp
  · cases v with
    | seq r =>
      dsimp only
      split
      · exact .fail _
      · rename_i place _
        split
        · refine .changeItems within fun items held u h => ?_
          rw [Array.toList_setIfInBounds] at h
          exact (List.mem_or_eq_of_mem_set h).elim (held u) fun eq => eq ▸ hvalue
        · split
          · refine .changeItems within fun items held u h => ?_
            rw [Array.toList_push] at h
            exact (List.mem_append.mp h).elim (held u) fun eq =>
              List.mem_singleton.mp eq ▸ hvalue
          · exact .fail _
    | record r =>
      exact .changeFields within fun fields held => Region.within_values_insert held hvalue
    | entity r => cases plain
    | _ => exact .fail _

end Accessors
