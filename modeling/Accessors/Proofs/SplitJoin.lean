import Accessors.Proofs.TextPositions

/-! Splitting and joining. A separator is found from left to right, each time after the end of the
one found before, and the pieces are what stands between; so joining them gives the text back, no
piece contains the separator, and there is one more of them than there are separators. Main
statement: `split_and_join`. -/

namespace Accessors

namespace Text

/-- A needle is found a number of times from left to right: at the first place where it stands, and
then in what comes after it. -/
inductive Found (needle : List Char) : List Char → Nat → Prop
  | absent {s : List Char} (none : ¬ needle <:+: s) : Found needle s 0
  | next {before after : List Char} {n : Nat}
      (first : ∀ i < before.length, ¬ needle <+: (before ++ needle ++ after).drop i)
      (rest : Found needle after n) : Found needle (before ++ needle ++ after) (n + 1)

section
variable {needle s before after : List Char}

theorem prefix_drop (before needle after : List Char) :
    needle <+: (before ++ needle ++ after).drop before.length := by
  rw [List.append_assoc, List.drop_left]
  exact List.prefix_append _ _

theorem cut?_eq_none_iff : cut? needle s = none ↔ ¬ needle <:+: s := by
  rw [cut?_eq]
  induction s with
  | nil =>
    unfold firstCut?
    split <;> simp_all
  | cons c s ih =>
    rw [firstCut?, List.infix_cons_iff, not_or, ← ih, ← List.isPrefixOf_iff_prefix]
    split <;> simp_all

theorem cut?_first {cut : List Char × List Char} (made : cut? needle s = some cut) :
    s = cut.1 ++ needle ++ cut.2 ∧ ∀ i < cut.1.length, ¬ needle <+: s.drop i := by
  have found : indexOf? needle s = some cut.1.length := by
    unfold indexOf?
    rw [made, Option.map_some]
  exact ⟨(cut?_append made).symm, (indexOf?_eq_some_iff.mp found).2.2⟩

theorem cut?_of_first (first : ∀ i < before.length, ¬ needle <+: (before ++ needle ++ after).drop i) :
    cut? needle (before ++ needle ++ after) = some (before, after) := by
  cases made : cut? needle (before ++ needle ++ after) with
  | none => exact absurd (List.infix_append before needle after) (cut?_eq_none_iff.mp made)
  | some cut =>
    obtain ⟨same, earliest⟩ := cut?_first made
    have length : before.length = cut.1.length := by
      rcases Nat.lt_trichotomy before.length cut.1.length with lt | eq | gt
      · exact absurd (prefix_drop before needle after) (earliest _ lt)
      · exact eq
      · refine absurd ?_ (first _ gt)
        rw [same]
        exact prefix_drop cut.1 needle cut.2
    obtain ⟨front, rest⟩ := List.append_inj (by simpa using same) length
    rw [front, List.append_cancel_left rest]

end

section
variable {first : Char} {others s before after : List Char} {n : Nat}

theorem split_of_absent (none : ¬ first :: others <:+: s) : split first others s = [s] := by
  rw [split, cut?_eq_none_iff.mpr none]

theorem split_of_found
    (earliest : ∀ i < before.length,
      ¬ first :: others <+: (before ++ first :: others ++ after).drop i) :
    split first others (before ++ first :: others ++ after) =
      before :: split first others after := by
  rw [split, cut?_of_first earliest]

theorem exists_found (first : Char) (others s : List Char) : ∃ n, Found (first :: others) s n := by
  fun_induction split first others s with
  | case1 s none => exact ⟨0, .absent (cut?_eq_none_iff.mp none)⟩
  | case2 s cut made ih =>
    obtain ⟨n, rest⟩ := ih
    obtain ⟨parts, earliest⟩ := cut?_first made
    rw [parts] at earliest ⊢
    exact ⟨n + 1, .next earliest rest⟩

namespace Found

theorem length_split (found : Found (first :: others) s n) :
    (split first others s).length = n + 1 := by
  induction found with
  | absent none => rw [split_of_absent none, List.length_singleton]
  | next earliest rest ih => rw [split_of_found earliest, List.length_cons, ih]

theorem intercalate_split (found : Found (first :: others) s n) :
    (first :: others).intercalate (split first others s) = s := by
  induction found with
  | absent none => rw [split_of_absent none, List.intercalate_singleton]
  | next earliest rest ih =>
    rw [split_of_found earliest, List.intercalate_cons_of_ne_nil (split_ne_nil _ _ _), ih]

theorem without_separator (found : Found (first :: others) s n) :
    ∀ piece ∈ split first others s, ¬ first :: others <:+: piece := by
  induction found with
  | absent none =>
    rw [split_of_absent none, List.forall_mem_singleton]
    exact none
  | @next before after n earliest rest ih =>
    rw [split_of_found earliest, List.forall_mem_cons]
    refine ⟨?_, ih⟩
    -- a separator within the piece would stand before the first one
    rintro ⟨front, back, whole⟩
    refine earliest front.length ?_ ?_
    · rw [← whole]
      simp
    · rw [← whole]
      simp [List.append_assoc]

end Found

theorem split_intercalate {c : Char} {texts : List (List Char)} (some : texts ≠ [])
    (without : ∀ t ∈ texts, c ∉ t) : split c [] ([c].intercalate texts) = texts := by
  have apart {t : List Char} (none : c ∉ t) : ¬ [c] <:+: t := fun inside =>
    none (inside.subset List.mem_cons_self)
  induction texts with
  | nil => exact absurd rfl some
  | cons t rest ih =>
    obtain ⟨none, without⟩ := List.forall_mem_cons.mp without
    cases rest with
    | nil => rw [List.intercalate_singleton, split_of_absent (apart none)]
    | cons u more =>
      rw [List.intercalate_cons_cons, split_of_found, ih (List.cons_ne_nil _ _) without]
      intro i lt starts
      rw [List.append_assoc, List.drop_append_of_le_length (Nat.le_of_lt lt),
        List.drop_eq_getElem_cons lt, List.cons_append, List.cons_prefix_cons] at starts
      exact none (starts.1 ▸ List.getElem_mem lt)

end

theorem intercalate_characters (s : List Char) :
    ([] : List Char).intercalate (s.map fun c => [c]) = s := by
  induction s with
  | nil => rfl
  | cons c s ih =>
    cases s with
    | nil => rfl
    | cons d s =>
      have more : (d :: s).map (fun c => [c]) ≠ [] := List.cons_ne_nil _ _
      rw [List.map_cons, List.intercalate_cons_of_ne_nil more, ih]
      rfl

end Text

/-- The parts of a text: joined by the separator they are the text, and where the separator is not
empty, no part contains it and there is one more of them than it is found. -/
structure Text.Parted (s separator : String) (parts : List String) : Prop where
  joined : separator.intercalate parts = s
  without : separator ≠ "" → ∀ part ∈ parts, ¬ separator.toList <:+: part.toList
  count : separator ≠ "" → ∃ n, Found separator.toList s.toList n ∧ parts.length = n + 1

namespace TextMethod

theorem exists_parted (s separator : String) : ∃ parts, Text.Parted s separator parts ∧
    pieces s.toList (some separator.toList) = parts.map .str := by
  rcases chars : separator.toList with _ | ⟨first, others⟩
  · have empty : separator = "" := String.toList_inj.mp chars
    refine ⟨s.toList.map fun c => String.ofList [c], ⟨?_, fun other => absurd empty other,
      fun other => absurd empty other⟩, ?_⟩
    · have same : String.toList ∘ (fun c => String.ofList [c]) = fun c => [c] :=
        funext fun _ => String.toList_ofList
      rw [← String.toList_inj, String.toList_intercalate, chars, List.map_map, same,
        Text.intercalate_characters]
    · rw [List.map_map]
      rfl
  · obtain ⟨n, found⟩ := Text.exists_found first others s.toList
    refine ⟨(Text.split first others s.toList).map String.ofList,
      ⟨?_, fun _ => ?_, fun _ => ⟨n, chars ▸ found, ?_⟩⟩, ?_⟩
    · rw [← String.toList_inj, String.toList_intercalate, chars, List.map_map]
      have same : String.toList ∘ String.ofList = id := funext fun _ => String.toList_ofList
      rw [same, List.map_id, found.intercalate_split]
    · rw [chars, List.forall_mem_map]
      simpa only [String.toList_ofList] using found.without_separator
    · rw [List.length_map, found.length_split]
    · rw [List.map_map]
      rfl

end TextMethod

namespace World
variable {w : World}

theorem gives_split (s : String) {p : Value} (defined : p.isUndefined = false) :
    w.Gives (.str s) "split" [p] (.seq w.objects.size)
      (w.push (.seq (TextMethod.pieces s.toList (some (w.display p).toList)).toArray)) := by
  have given : (argument [p] 0).isUndefined = false := defined
  refine ⟨_, rfl, ?_⟩
  unfold TextMethod.split
  rw [EStateM.run_bind, EStateM.run_get]
  simp only [given, Bool.false_eq_true, if_false]
  rfl

theorem gives_join {r : Ref} {parts : List String} (texts : w.items r = parts.map .str) {p : Value}
    (defined : p.isUndefined = false) :
    w.Gives (.seq r) "join" [p] (.str ((w.display p).intercalate parts)) w := by
  have given : (argument [p] 0).isUndefined = false := defined
  have shown : (w.items r).map (fun item => if item.isNullish then "" else w.display item) =
      parts := by
    rw [texts, List.map_map]
    exact (List.map_congr_left fun part _ => w.display_str part).trans (List.map_id parts)
  refine ⟨_, rfl, ?_⟩
  unfold SequenceMethod.join
  rw [EStateM.run_bind, EStateM.run_get]
  simp only [given, Bool.false_eq_true, if_false]
  show EStateM.run (pure (Value.str ((w.display p).intercalate ((w.items r).map _)))) w = _
  rw [shown]
  rfl

theorem Grows.display {w' : World} (grows : w.Grows w') {v : Value} (finite : w.Finite v) :
    w'.display v = w.display v := by
  obtain ⟨n, fathomed⟩ := finite
  exact Region.Evolves.display grows
    (fun s reaches => Nat.not_le.mpr (fathomed.lt reaches)) ⟨n, fathomed⟩

end World

open World in
/-- Splitting and joining undo each other. Whatever value other than undefined gives the separator by
its displayed form, joining the pieces of a text by the same separator yields the text, be it given
by another value that is displayed so or by the same one, if that does not contain itself. No piece
contains a separator that is not empty, and there is one more of them than the separator is found
from left to right. Texts, at least one, of which none contains a character are what their join by
this character is split into. -/
theorem split_and_join (w : World) :
    (∀ s p, p.isUndefined = false → ∃ r w' parts, w.Gives (.str s) "split" [p] (.seq r) w' ∧
      w'.items r = parts.map .str ∧ Text.Parted s (w.display p) parts ∧
      (∀ q, q.isUndefined = false → w'.display q = w.display p →
        w'.Gives (.seq r) "join" [q] (.str s) w') ∧
      (w.Finite p → w'.Gives (.seq r) "join" [p] (.str s) w')) ∧
    ∀ r parts c p, w.items r = parts.map .str → parts ≠ [] → (∀ part ∈ parts, c ∉ part.toList) →
      w.display p = String.ofList [c] → ∃ t r' w', w.Gives (.seq r) "join" [p] (.str t) w ∧
        w.Gives (.str t) "split" [p] (.seq r') w' ∧ w'.items r' = parts.map .str := by
  refine ⟨fun s p defined => ?_, fun r parts c p texts some without shown => ?_⟩
  · obtain ⟨parts, parted, pieces⟩ := TextMethod.exists_parted s (w.display p)
    have gives := w.gives_split s defined
    rw [pieces] at gives
    have grows : w.Grows (w.push (.seq (parts.map Value.str).toArray)) := .push w rfl
    have items := w.items_push (parts.map .str)
    have joins (q : Value) (defined : q.isUndefined = false)
        (same : (w.push (.seq (parts.map Value.str).toArray)).display q = w.display p) :=
      parted.joined ▸ same ▸ gives_join items defined
    exact ⟨_, _, parts, gives, items, parted, joins,
      fun finite => joins p defined (grows.display finite)⟩
  · have defined : p.isUndefined = false := by
      cases p with
      | undefined =>
        have word : w.display .undefined = "undefined" := by
          unfold World.display World.displayWithin
          rfl
        have letters : "undefined".length = 9 := by decide
        rw [← word, shown, String.length_ofList] at letters
        cases letters
      | _ => rfl
    have gives := w.gives_split ((w.display p).intercalate parts) defined
    have pieces : TextMethod.pieces ((w.display p).intercalate parts).toList
        (Option.some (w.display p).toList) = parts.map .str := by
      rw [String.toList_intercalate, shown, String.toList_ofList]
      show (Text.split c [] ([c].intercalate (parts.map String.toList))).map _ = _
      have apart : ∀ t ∈ parts.map String.toList, c ∉ t := List.forall_mem_map.mpr without
      rw [Text.split_intercalate (mt List.map_eq_nil_iff.mp some) apart, List.map_map]
      exact List.map_congr_left fun part _ => congrArg Value.str String.ofList_toList
    rw [pieces] at gives
    exact ⟨_, _, _, gives_join texts defined, gives, items_push w _⟩

open World in
/-- A separator that overlaps with itself, and a digit between texts of which one is empty. -/
theorem split_at_overlap_and_digit :
    let w := { World.initial with objects := #[.seq #[.str "a", .str "", .str "b"]] }
    w.Finite (.str "aa") ∧
    (∃ r w' parts, w.Gives (.str "aaaba") "split" [.str "aa"] (.seq r) w' ∧
      w'.items r = parts.map .str ∧ Text.Parted "aaaba" "aa" parts ∧
      w'.Gives (.seq r) "join" [.str "aa"] (.str "aaaba") w') ∧
    w.display (.number 5) = "5" ∧ ∃ t r' w', w.Gives (.seq 0) "join" [.number 5] (.str t) w ∧
      w.Gives (.str t) "split" [.number 5] (.seq r') w' ∧
      w'.items r' = [.str "a", .str "", .str "b"] := by
  intro w
  obtain ⟨splits, joins⟩ := split_and_join w
  have finite : w.Finite (.str "aa") := ⟨0, .scalar rfl⟩
  have digit : w.display (.number 5) = "5" := (w.display_number 5).trans (by decide +kernel)
  obtain ⟨r, w', parts, gives, items, parted, _, joined⟩ := splits "aaaba" (.str "aa") rfl
  rw [w.display_str] at parted
  have joined' := joins 0 ["a", "", "b"] '5' (.number 5) rfl (by decide) (by decide) digit
  exact ⟨finite, ⟨r, w', parts, gives, items, parted, joined finite⟩, digit, joined'⟩

end Accessors
