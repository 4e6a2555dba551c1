/-! Searching and splitting texts, as lists of characters. Matches are found from left to
right and never overlap. A fingerprint slides along the text and rules out almost every
place where the needle does not start, so that a search takes a time in proportion to the
text however alike the two are. Main statement: `cut?_eq`, that the fingerprint decides
nothing, and the first place where the needle starts is found. -/

namespace Accessors.Text

/-- The text before and after the first occurrence of `needle`, each place tried in turn. -/
def firstCut? (needle : List Char) : List Char → Option (List Char × List Char)
  | [] => if needle.isEmpty then some ([], []) else none
  | c :: rest =>
    if needle.isPrefixOf (c :: rest) then some ([], (c :: rest).drop needle.length)
    else (firstCut? needle rest).map fun cut => (c :: cut.1, cut.2)

def base : UInt64 := 1000003

def code (c : Char) : UInt64 :=
  c.val.toUInt64

/-- The number whose digits are the characters, as far as a word holds it. -/
def fingerprint (s : List Char) : UInt64 :=
  s.foldl (fun sum c => sum * base + code c) 0

/-- What a digit weighs that stands before `s`. -/
def weight (s : List Char) : UInt64 :=
  s.foldl (fun product _ => product * base) 1

/-- The fingerprint once `c` has left at the front and `d` has come at the end. -/
def slide (weight sum : UInt64) (c d : Char) : UInt64 :=
  (sum - code c * weight) * base + code d

/-- Goes on searching in `s`, of which `ahead` is what follows the window; `before` is what
has been passed, nearest first. -/
def seek (needle : List Char) (target weight : UInt64) (before : List Char) (sum : UInt64)
    (s ahead : List Char) : Option (List Char × List Char) :=
  if sum == target && needle.isPrefixOf s then some (before.reverse, s.drop needle.length)
  else
    match s, ahead with
    | c :: rest, d :: more =>
      seek needle target weight (c :: before) (slide weight sum c d) rest more
    | _, _ => none

/-- The text before and after the first occurrence of `needle`. -/
def cut? (needle s : List Char) : Option (List Char × List Char) :=
  seek needle (fingerprint needle) (weight needle.tail) []
    (fingerprint (s.take needle.length)) s (s.drop needle.length)

theorem weight_fold (s : List Char) (product : UInt64) :
    s.foldl (fun product _ => product * base) product = product * weight s := by
  induction s generalizing product with
  | nil => simp [weight]
  | cons c rest ih =>
    rw [weight, List.foldl_cons, List.foldl_cons, ih, ih (1 * base)]
    grind

theorem fingerprint_fold (s : List Char) (sum : UInt64) :
    s.foldl (fun sum c => sum * base + code c) sum = sum * weight s + fingerprint s := by
  induction s generalizing sum with
  | nil => simp [weight, fingerprint]
  | cons c rest ih =>
    have heavier : weight (c :: rest) = base * weight rest := by
      rw [weight, List.foldl_cons, weight_fold]
      grind
    rw [fingerprint, List.foldl_cons, List.foldl_cons, ih, ih (0 * base + code c), heavier]
    grind

theorem fingerprint_cons (c : Char) (s : List Char) :
    fingerprint (c :: s) = code c * weight s + fingerprint s := by
  rw [fingerprint, List.foldl_cons, fingerprint_fold]
  grind

theorem fingerprint_append (s : List Char) (d : Char) :
    fingerprint (s ++ [d]) = fingerprint s * base + code d := by
  simp [fingerprint]

theorem weight_eq {s t : List Char} (h : s.length = t.length) : weight s = weight t := by
  induction s generalizing t with
  | nil => rw [List.length_eq_zero_iff.mp h.symm]
  | cons c rest ih =>
    match t, h with
    | d :: others, h =>
      rw [weight, weight, List.foldl_cons, List.foldl_cons, weight_fold, weight_fold,
        ih (Nat.succ.inj h)]

/-- Sliding gives the fingerprint of the next window. -/
theorem slide_fingerprint (c d : Char) (s : List Char) :
    slide (weight s) (fingerprint (c :: s)) c d = fingerprint (s ++ [d]) := by
  rw [slide, fingerprint_cons, fingerprint_append]
  grind

theorem firstCut?_short {needle s : List Char} (h : s.length < needle.length) :
    firstCut? needle s = none := by
  induction s with
  | nil =>
    match needle, h with
    | _ :: _, _ => rfl
  | cons c rest ih =>
    have shorter : rest.length < needle.length := Nat.lt_of_succ_lt h
    have notPrefix : needle.isPrefixOf (c :: rest) = false := by
      rw [Bool.eq_false_iff]
      intro starts
      exact absurd (List.isPrefixOf_iff_prefix.mp starts).length_le (Nat.not_le.mpr h)
    simp [firstCut?, notPrefix, ih shorter]

theorem take_of_isPrefixOf {needle s : List Char} (h : needle.isPrefixOf s = true) :
    s.take needle.length = needle :=
  (List.prefix_iff_eq_take.mp (List.isPrefixOf_iff_prefix.mp h)).symm

theorem seek_eq (needle before s : List Char) :
    seek needle (fingerprint needle) (weight needle.tail) before
        (fingerprint (s.take needle.length)) s (s.drop needle.length) =
      (firstCut? needle s).map fun cut => (before.reverse ++ cut.1, cut.2) := by
  induction s generalizing before with
  | nil =>
    match needle with
    | [] => simp [seek, firstCut?]
    | first :: others => simp [seek, firstCut?]
  | cons c rest ih =>
    by_cases starts : needle.isPrefixOf (c :: rest) = true
    · unfold seek
      rw [take_of_isPrefixOf starts, beq_self_eq_true, starts, Bool.true_and, if_pos rfl]
      simp [firstCut?, starts]
    · match needle with
      | [] => simp at starts
      | first :: others =>
        have advance (more : List Char) (d : Char) (ahead : rest.drop others.length = d :: more) :
            rest.take (first :: others).length = rest.take others.length ++ [d] ∧
              rest.drop (first :: others).length = more ∧
              weight others = weight (rest.take others.length) := by
          have within : others.length < rest.length := by
            rw [← Nat.not_le]
            intro short
            rw [List.drop_eq_nil_iff.mpr short] at ahead
            exact absurd ahead (by simp)
          have head : rest[others.length]? = some d := by
            rw [← List.head?_drop, ahead, List.head?_cons]
          refine ⟨?_, ?_, weight_eq (by rw [List.length_take]; omega)⟩
          · rw [List.length_cons, List.take_add_one, head, Option.toList_some]
          · rw [List.length_cons, ← List.drop_drop, ahead, List.drop_succ_cons, List.drop_zero]
        unfold seek
        rw [if_neg (by simp [starts]), firstCut?, if_neg starts, List.length_cons,
          List.drop_succ_cons]
        match ahead : rest.drop others.length with
        | [] =>
          have short : rest.length < (first :: others).length :=
            Nat.lt_succ_of_le (List.drop_eq_nil_iff.mp ahead)
          simp [firstCut?_short short]
        | d :: more =>
          obtain ⟨window, next, same⟩ := advance more d ahead
          have step := ih (c :: before)
          rw [window, ← slide_fingerprint c d, ← same, next] at step
          rw [List.take_succ_cons]
          simp only [List.tail_cons] at step ⊢
          rw [step, Option.map_map]
          congr 1
          funext cut
          simp

/-- The first place where the needle starts is found. -/
theorem cut?_eq (needle s : List Char) : cut? needle s = firstCut? needle s := by
  rw [cut?, seek_eq]
  simp

theorem firstCut?_append {needle s before after : List Char}
    (h : firstCut? needle s = some (before, after)) : before ++ needle ++ after = s := by
  induction s generalizing before with
  | nil =>
    match needle, h with
    | [], h => cases h; rfl
  | cons c rest ih =>
    unfold firstCut? at h
    split at h
    · rename_i starts
      cases h
      have whole := List.take_append_drop needle.length (c :: rest)
      rw [take_of_isPrefixOf starts] at whole
      exact whole
    · obtain ⟨cut, found, eq⟩ := Option.map_eq_some_iff.mp h
      cases eq
      rw [List.cons_append, List.cons_append, ih found]

/-- The parts around an occurrence make up the text. -/
theorem cut?_append {needle s before after : List Char}
    (h : cut? needle s = some (before, after)) : before ++ needle ++ after = s :=
  firstCut?_append (cut?_eq needle s ▸ h)

/-- The position of the first occurrence of `needle`. -/
def indexOf? (needle s : List Char) : Option Nat :=
  (cut? needle s).map (·.1.length)

def includes (needle s : List Char) : Bool :=
  (cut? needle s).isSome

theorem indexOf?_cons (needle : List Char) (c : Char) (rest : List Char) :
    indexOf? needle (c :: rest) =
      if needle.isPrefixOf (c :: rest) then some 0 else (indexOf? needle rest).map (· + 1) := by
  rw [indexOf?, indexOf?, cut?_eq, cut?_eq, firstCut?]
  split
  · rfl
  · rw [Option.map_map, Option.map_map]
    rfl

theorem length_after_cut {first : Char} {others s : List Char}
    {cut : List Char × List Char} (h : cut? (first :: others) s = some cut) :
    cut.2.length < s.length := by
  rw [← cut?_append h]
  simp only [List.length_append, List.length_cons]
  omega

/-- The pieces between the occurrences of the separator `first :: others`. -/
def split (first : Char) (others s : List Char) : List (List Char) :=
  match _ : cut? (first :: others) s with
  | none => [s]
  | some cut => cut.1 :: split first others cut.2
termination_by s.length
decreasing_by exact length_after_cut ‹_›

theorem split_ne_nil (first : Char) (others s : List Char) : split first others s ≠ [] := by
  unfold split
  split <;> simp

end Accessors.Text
