import Accessors.Builtin.Find
import Accessors.Proofs.DateProperties
import Accessors.Proofs.FollowedLevels
import Accessors.Proofs.KeyedLens

/-! Slices. A relative position is cut off at the ends, so that what comes before a place and what
comes after it make up the whole, whatever value says the place, and a slice without an end is the
rest. Slicing a text and slicing the sequence of its characters is the same: both
take a part of a list, and which part depends on the arguments and the length alone. Main statement:
`slices_partition`. -/

namespace Accessors

namespace World

/-- A built-in method of a value gives a value, and leaves a world. -/
def Gives (w : World) (this : Value) (name : String) (args : List Value) (v : Value) (w' : World) :
    Prop :=
  ∃ method, builtin? this name = some method ∧ (method this args).run w = .ok v w'

section
variable (w : World) {α β : Type} (xs : List α) (args : List Value) {p : Value}

theorem relative_le (p : Value) {length default : Nat} (le : default ≤ length) :
    w.relative p length default ≤ length := by
  unfold relative
  split
  · exact le
  · dsimp only
    split
    · split <;> omega
    · split <;> omega

theorem relative_defined (defined : p.isUndefined = false) (length default default' : Nat) :
    w.relative p length default = w.relative p length default' := by
  unfold relative
  simp only [defined, Bool.false_eq_true, if_false]

theorem relative_zero (length default : Nat) : w.relative (.number 0) length default = 0 := by
  have start : Number.truncated? 0 = some 0 := by decide +kernel
  unfold relative
  rw [toNumber_number]
  simp [Value.isUndefined, start]

theorem slice_rest (p : Value) : w.slice xs [p] = xs.drop (w.relative p xs.length 0) := by
  have whole : w.relative .undefined xs.length xs.length = xs.length := rfl
  show (xs.take (w.relative .undefined xs.length xs.length)).drop (w.relative p xs.length 0) = _
  rw [whole, List.take_length]

theorem slice_append_slice (defined : p.isUndefined = false) :
    w.slice xs [.number 0, p] ++ w.slice xs [p] = xs := by
  have before : w.slice xs [.number 0, p] = xs.take (w.relative p xs.length xs.length) := by
    show (xs.take (w.relative p xs.length xs.length)).drop (w.relative (.number 0) xs.length 0) = _
    rw [relative_zero, List.drop_zero]
  rw [before, slice_rest, w.relative_defined defined xs.length 0 xs.length, List.take_append_drop]

theorem slice_map (f : α → β) : w.slice (xs.map f) args = (w.slice xs args).map f := by
  unfold slice
  rw [List.length_map, List.map_drop, List.map_take]

end

section
variable {w : World}

theorem gives_slice_str (w : World) (s : String) (args : List Value) :
    w.Gives (.str s) "slice" args (.str (String.ofList (w.slice s.toList args))) w :=
  ⟨_, rfl, rfl⟩

theorem gives_slice_seq (w : World) (r : Ref) (args : List Value) :
    w.Gives (.seq r) "slice" args (.seq w.objects.size)
      (w.push (.seq (w.slice (w.items r) args).toArray)) :=
  ⟨_, rfl, rfl⟩

theorem items_push (w : World) (items : List Value) :
    (w.push (.seq items.toArray)).items w.objects.size = items := by
  unfold World.items World.sequence
  rw [getElem?_push, if_pos rfl]

theorem items_push_of_ne {r : Ref} (ne : r ≠ w.objects.size) (o : Object) :
    (w.push o).items r = w.items r := by
  unfold World.items World.sequence
  rw [getElem?_push, if_neg ne]

theorem Live.ne_size {r : Ref} (live : w.Live (.seq r)) : r ≠ w.objects.size := by
  obtain ⟨items, there⟩ := live
  rintro rfl
  rw [Array.getElem?_eq_none (Nat.le_refl _)] at there
  cases there

theorem slice_of_number {α : Type} {w' : World} {p : Value} (same : w'.toNumber p = w.toNumber p)
    (xs : List α) : w'.slice xs [p] = w.slice xs [p] := by
  have start (length default : Nat) :
      w'.relative p length default = w.relative p length default := by
    unfold relative
    rw [same]
  rw [slice_rest, slice_rest, start]

end

end World

theorem World.join_characters (w : World) (s : List Char) :
    String.join ((characters s).map w.display) = String.ofList s := by
  induction s with
  | nil => rfl
  | cons c s ih =>
    have first : w.display (.str (String.ofList [c])) = String.ofList [c] := w.display_str _
    show String.join (w.display (.str (String.ofList [c])) :: (characters s).map w.display) = _
    rw [String.join_cons, ih, first, ← String.ofList_append]
    rfl

/-- What a slice takes of a list: the items from one place, within the list, up to another one. -/
structure World.Cut {α : Type} (w : World) (args : List Value) (xs part : List α) : Prop where
  start_le : w.relative (argument args 0) xs.length 0 ≤ xs.length
  stop_le : w.relative (argument args 1) xs.length xs.length ≤ xs.length
  length : part.length =
    w.relative (argument args 1) xs.length xs.length - w.relative (argument args 0) xs.length 0
  items : ∀ i < part.length, part[i]? = xs[w.relative (argument args 0) xs.length 0 + i]?

theorem World.cut_slice {α : Type} (w : World) (args : List Value) (xs : List α) :
    w.Cut args xs (w.slice xs args) := by
  have start_le := w.relative_le (argument args 0) (Nat.zero_le xs.length)
  have stop_le := w.relative_le (argument args 1) (Nat.le_refl xs.length)
  have length : (w.slice xs args).length =
      w.relative (argument args 1) xs.length xs.length -
        w.relative (argument args 0) xs.length 0 := by
    unfold slice
    rw [List.length_drop, List.length_take, Nat.min_eq_left stop_le]
  refine ⟨start_le, stop_le, length, fun i lt => ?_⟩
  unfold slice
  rw [List.getElem?_drop, List.getElem?_take_of_lt (by omega)]

open World in
/-- Slices partition. The slice up to a position and the slice from it on make up the text or the
sequence, whatever value other than undefined gives the position; its handles, and that of the
sequence, lead to objects. With the same arguments, the slice of a text and the slice of the
sequence of its characters are the same, character by character. Either has the items between two
places that are within its length. -/
theorem slices_partition (w : World) :
    (∀ s p, p.isUndefined = false → ∃ before after,
      w.Gives (.str s) "slice" [.number 0, p] (.str before) w ∧
      w.Gives (.str s) "slice" [p] (.str after) w ∧ before ++ after = s) ∧
    (∀ r p, w.Live (.seq r) → (∀ s, w.Reaches p s → s < w.objects.size) →
      p.isUndefined = false → ∃ before after w₁ w₂,
      w.Gives (.seq r) "slice" [.number 0, p] (.seq before) w₁ ∧
      w₁.Gives (.seq r) "slice" [p] (.seq after) w₂ ∧
      w₂.items before ++ w₂.items after = w.items r) ∧
    (∀ s r args, w.items r = characters s.toList → ∃ part r' w',
      w.Gives (.str s) "slice" args (.str part) w ∧ w.Cut args s.toList part.toList ∧
      w.Gives (.seq r) "slice" args (.seq r') w' ∧ w'.items r' = characters part.toList ∧
      String.join ((w'.items r').map w'.display) = part) ∧
    ∀ r args, ∃ r' w', w.Gives (.seq r) "slice" args (.seq r') w' ∧
      w.Cut args (w.items r) (w'.items r') := by
  refine ⟨fun s p defined => ?_, fun r p live present defined => ?_, fun s r args chars => ?_,
    fun r args => ?_⟩
  · refine ⟨_, _, w.gives_slice_str s _, w.gives_slice_str s _, ?_⟩
    rw [← String.ofList_append, w.slice_append_slice s.toList defined, String.ofList_toList]
  · -- the object that the first slice makes is none that the sequence or the position leads to
    have gives := w.gives_slice_seq r [.number 0, p]
    generalize made : w.push (.seq (w.slice (w.items r) [.number 0, p]).toArray) = w₁ at gives
    have before : w₁.items w.objects.size = w.slice (w.items r) [.number 0, p] := by
      rw [← made, items_push]
    have kept : w₁.items r = w.items r := by
      rw [← made, items_push_of_ne live.ne_size]
    have number : w₁.toNumber p = w.toNumber p := by
      rw [← made]
      exact (Grows.push w rfl).toNumber present
    have newer : w.objects.size ≠ w₁.objects.size := by
      rw [← made]
      simp [World.push]
    refine ⟨_, _, _, _, gives, w₁.gives_slice_seq r [p], ?_⟩
    rw [items_push, items_push_of_ne newer, before, kept, slice_of_number number,
      w.slice_append_slice _ defined]
  · have taken : w.slice (w.items r) args = characters (w.slice s.toList args) := by
      rw [chars]
      exact w.slice_map s.toList args _
    refine ⟨_, _, _, w.gives_slice_str s args, ?_, w.gives_slice_seq r args, ?_, ?_⟩
    · rw [String.toList_ofList]
      exact w.cut_slice args s.toList
    · rw [items_push, taken, String.toList_ofList]
    · rw [items_push, taken, World.join_characters]
  · refine ⟨_, _, w.gives_slice_seq r args, ?_⟩
    rw [items_push]
    exact w.cut_slice args (w.items r)

/-- A position that is a negative fraction, as a text in a sequence. -/
theorem slices_at_nested_position :
    let w : World := { World.initial with
      objects := #[.seq #[.str "a", .str "é", .str "😀"], .seq #[.str " -1.5 "]] }
    (∃ before after, w.Gives (.str "aé😀") "slice" [.number 0, .seq 1] (.str before) w ∧
      w.Gives (.str "aé😀") "slice" [.seq 1] (.str after) w ∧ before ++ after = "aé😀") ∧
    (∃ before after w₁ w₂, w.Gives (.seq 0) "slice" [.number 0, .seq 1] (.seq before) w₁ ∧
      w₁.Gives (.seq 0) "slice" [.seq 1] (.seq after) w₂ ∧
      w₂.items before ++ w₂.items after = w.items 0) ∧
    ∃ part r' w', w.Gives (.str "aé😀") "slice" [.seq 1] (.str part) w ∧
      w.Gives (.seq 0) "slice" [.seq 1] (.seq r') w' ∧ w'.items r' = characters part.toList := by
  intro w
  have finite : w.Fathoms 1 (.seq 1) := by
    refine .object rfl (by decide) fun item held => .scalar ?_
    obtain rfl := List.mem_singleton.mp held
    rfl
  obtain ⟨text, sequence, characters, _⟩ := slices_partition w
  obtain ⟨part, r', w', gives, _, gives', same, _⟩ := characters "aé😀" 0 [.seq 1] rfl
  exact ⟨text "aé😀" (.seq 1) rfl, sequence 0 (.seq 1) ⟨_, rfl⟩ (fun _ => finite.lt) rfl,
    part, r', w', gives, gives', same⟩

end Accessors
