import Accessors.Text.Search
import Mathlib.Data.List.Infix

/-! Searching among bytes. In UTF-8 the first byte of a character is never one of its later bytes,
and the bytes of a character tell it from all that begin otherwise, so the bytes of a needle stand
among those of a text just where the needle stands in the text. The first such place is found after
the bytes of the characters that come before the needle. Main statement: `firstPlace?_bytes`. -/

namespace Accessors.Text

def firstPlace? {α : Type} [BEq α] (pattern s : List α) : Option Nat :=
  s.tails.findIdx? (pattern.isPrefixOf ·)

def bytes (s : List Char) : List UInt8 :=
  s.flatMap String.utf8EncodeChar

section
variable {α : Type} [BEq α] {pattern s : List α}

theorem firstPlace?_cons (pattern : List α) (a : α) (s : List α) :
    firstPlace? pattern (a :: s) =
      if pattern.isPrefixOf (a :: s) then some 0 else (firstPlace? pattern s).map (· + 1) := by
  unfold firstPlace?
  rw [List.tails_cons, List.findIdx?_cons]

theorem firstPlace?_nil (pattern : List α) :
    firstPlace? pattern [] = if pattern.isPrefixOf [] then some 0 else none := by
  unfold firstPlace?
  rw [List.tails, List.findIdx?_cons, List.findIdx?_nil, Option.map_none]

theorem firstPlace?_of_starts (starts : pattern.isPrefixOf s = true) :
    firstPlace? pattern s = some 0 := by
  cases s with
  | nil => rw [firstPlace?_nil, if_pos starts]
  | cons a s => rw [firstPlace?_cons, if_pos starts]

theorem firstPlace?_append {front : List α}
    (nowhere : ∀ k < front.length, pattern.isPrefixOf (front.drop k ++ s) = false) :
    firstPlace? pattern (front ++ s) = (firstPlace? pattern s).map (front.length + ·) := by
  induction front with
  | nil => simp
  | cons a front ih =>
    have here := nowhere 0 (Nat.succ_pos _)
    rw [List.drop_zero, List.cons_append] at here
    rw [List.cons_append, firstPlace?_cons, if_neg (by simp [here]), ih fun k lt =>
      nowhere (k + 1) (Nat.succ_lt_succ lt), Option.map_map]
    congr 1
    funext place
    simp only [Function.comp_apply, List.length_cons]
    omega

end

theorem firstPlace?_eq_indexOf? (needle s : List Char) :
    firstPlace? needle s = indexOf? needle s := by
  induction s with
  | nil =>
    rw [firstPlace?_nil, indexOf?, cut?_eq]
    cases needle <;> rfl
  | cons c s ih => rw [firstPlace?_cons, ih, indexOf?_cons]

section
variable {c d : Char} {needle s : List Char}

theorem bytes_cons (c : Char) (s : List Char) :
    bytes (c :: s) = String.utf8EncodeChar c ++ bytes s := rfl

theorem bytes_eq_nil (none : bytes s = []) : s = [] := by
  cases s with
  | nil => rfl
  | cons c s =>
    rw [bytes_cons, List.append_eq_nil_iff] at none
    exact absurd none.1 String.utf8EncodeChar_ne_nil

theorem encode_inj {a b : List UInt8}
    (same : String.utf8EncodeChar c ++ a = String.utf8EncodeChar d ++ b) : c = d := by
  have decoded (c : Char) (a : List UInt8) :
      (String.utf8EncodeChar c ++ a).toByteArray.utf8DecodeChar? 0 = some c := by
    rw [List.toByteArray_append]
    exact ByteArray.utf8DecodeChar?_utf8EncodeChar_append
  have first := decoded c a
  rw [same, decoded d b] at first
  exact (Option.some.inj first).symm

theorem bytes_prefix_iff : bytes needle <+: bytes s ↔ needle <+: s := by
  induction needle generalizing s with
  | nil => exact iff_of_true List.nil_prefix List.nil_prefix
  | cons c needle ih =>
    cases s with
    | nil =>
      refine iff_of_false (fun starts => ?_) (by simp)
      cases bytes_eq_nil (List.prefix_nil.mp starts)
    | cons d s =>
      rw [bytes_cons, bytes_cons, List.cons_prefix_cons]
      constructor
      · rintro starts
        obtain ⟨rest, same⟩ := starts
        rw [List.append_assoc] at same
        obtain rfl := encode_inj same
        rw [List.append_cancel_left_eq] at same
        exact ⟨rfl, ih.mp ⟨rest, same⟩⟩
      · rintro ⟨rfl, starts⟩
        exact (List.prefix_append_right_inj _).mpr (ih.mpr starts)

theorem not_prefix_inside (some : needle ≠ []) {k : Nat} (later : k ≠ 0)
    (lt : k < (String.utf8EncodeChar c).length) (rest : List UInt8) :
    ¬ bytes needle <+: (String.utf8EncodeChar c).drop k ++ rest := by
  obtain ⟨d, needle, rfl⟩ := List.exists_cons_of_ne_nil some
  intro starts
  rw [List.drop_eq_getElem_cons lt, bytes_cons] at starts
  have positive : 0 < (String.utf8EncodeChar d).length :=
    List.length_pos_iff.mpr String.utf8EncodeChar_ne_nil
  rw [← List.drop_zero (l := String.utf8EncodeChar d), List.drop_eq_getElem_cons positive,
    List.cons_append, List.cons_append, List.cons_prefix_cons] at starts
  have first : ((String.utf8EncodeChar d)[0]).IsUTF8FirstByte :=
    UInt8.isUTF8FirstByte_getElem_utf8EncodeChar.mpr rfl
  rw [starts.1, UInt8.isUTF8FirstByte_getElem_utf8EncodeChar] at first
  exact later first

theorem firstPlace?_bytes (needle s : List Char) :
    firstPlace? (bytes needle) (bytes s) =
      (indexOf? needle s).map fun i => (bytes (s.take i)).length := by
  have same (s : List Char) : (bytes needle).isPrefixOf (bytes s) = needle.isPrefixOf s := by
    rw [Bool.eq_iff_iff, List.isPrefixOf_iff_prefix, List.isPrefixOf_iff_prefix, bytes_prefix_iff]
  rw [← firstPlace?_eq_indexOf?]
  induction s with
  | nil =>
    have start : (bytes needle).isPrefixOf [] = needle.isPrefixOf [] := same []
    rw [show bytes [] = [] from rfl, firstPlace?_nil, firstPlace?_nil, start]
    split <;> rfl
  | cons c s ih =>
    by_cases starts : needle.isPrefixOf (c :: s) = true
    · rw [firstPlace?_of_starts starts, firstPlace?_of_starts ((same _).trans starts)]
      rfl
    · have some : needle ≠ [] := by
        rintro rfl
        exact starts rfl
      have nowhere : ∀ k < (String.utf8EncodeChar c).length,
          (bytes needle).isPrefixOf ((String.utf8EncodeChar c).drop k ++ bytes s) = false := by
        intro k lt
        rw [Bool.eq_false_iff, ne_eq]
        -- at the first byte of a character the characters decide, at a later one its kind does
        by_cases zero : k = 0
        · rw [zero, List.drop_zero, ← bytes_cons, same]
          exact starts
        · rw [List.isPrefixOf_iff_prefix]
          exact not_prefix_inside some zero lt _
      rw [firstPlace?_cons, if_neg starts, bytes_cons, firstPlace?_append nowhere, ih,
        Option.map_map, Option.map_map]
      congr 1
      funext place
      simp only [Function.comp_apply, List.take_succ_cons, bytes_cons, List.length_append]

end

end Accessors.Text
