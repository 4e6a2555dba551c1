import Accessors.Instruction

/-! Camel case. What upper case can give within ASCII, from the tables of case mappings: the
character itself, or a capital letter. So a camel-cased text ends in `=` only where the text does,
and a small letter in it is one of the text. Main statements: camel case leaves a final `=` where
it is (`camelChars_append_mark`, `getLast?_camelChars`), and what text a camel-cased text can come
from (`camelChars_eq_cons`). -/

namespace Accessors

namespace Text

theorem upperRuns_ascii : ∀ run ∈ upperRuns, 0x80 ≤ run.first + run.shift ∨
    0x41 ≤ run.first + run.shift ∧ run.last + run.shift ≤ 0x5a := by
  decide +kernel

theorem upperRuns_capital : ∀ run ∈ upperRuns, run.first + run.shift ≤ 0x4f →
    0x4f ≤ run.last + run.shift → run.shift = -32 := by
  decide +kernel

theorem upperExpansions_ascii : ∀ entry ∈ upperExpansions, entry.2 ≠ [] ∧ ∀ n ∈ entry.2,
    0x80 ≤ n ∨ 0x41 ≤ n ∧ n ≤ 0x5a ∧ n ≠ 0x4f := by
  decide +kernel

theorem toNat_of_ofNat {d : Char} {n : Nat} (image : d = Char.ofNat n) (some : d.toNat ≠ 0) :
    d.toNat = n := by
  subst image
  by_cases valid : n.isValidChar
  · rw [Char.ofNat, dif_pos valid]
    rfl
  · rw [Char.ofNat, dif_neg valid] at some
    exact absurd rfl some

theorem upperChar_cases (c : Char) :
    upperChar c = [c] ∨
    (∃ run ∈ upperRuns, run.first ≤ c.toNat ∧ c.toNat ≤ run.last ∧
      upperChar c = [Char.ofNat (c.toNat + run.shift).toNat]) ∨
    ∃ entry ∈ upperExpansions, upperChar c = entry.2.map Char.ofNat := by
  unfold upperChar
  split
  · rename_i image expands
    obtain ⟨entry, found, rfl⟩ := Option.map_eq_some_iff.mp expands
    have listed := List.mem_of_find?_eq_some (Option.filter_eq_some_iff.mp found).1
    exact .inr (.inr ⟨entry, listed, rfl⟩)
  · split
    · rename_i image maps
      obtain ⟨run, found, maps⟩ := Option.bind_eq_some_iff.mp maps
      have listed := List.mem_of_find?_eq_some found
      unfold CaseRun.map? at maps
      split at maps
      · rename_i covers
        cases maps
        exact .inr (.inl ⟨run, listed, covers.1, covers.2.1, rfl⟩)
      · cases maps
    · exact .inl rfl

theorem upperChar_ne_nil (c : Char) : upperChar c ≠ [] := by
  rcases upperChar_cases c with self | ⟨run, _, _, _, image⟩ | ⟨entry, listed, image⟩
  · simp [self]
  · simp [image]
  · simpa [image] using (upperExpansions_ascii entry listed).1

theorem mem_upperChar_ascii {c d : Char} (mem : d ∈ upperChar c) (some : d.toNat ≠ 0)
    (ascii : d.toNat < 0x80) :
    (upperChar c = [c] ∧ d = c) ∨ 0x41 ≤ d.toNat ∧ d.toNat ≤ 0x5a := by
  rcases upperChar_cases c with self | ⟨run, listed, least, greatest, image⟩ | ⟨entry, listed, image⟩
  · rw [self] at mem
    exact .inl ⟨self, List.mem_singleton.mp mem⟩
  · rw [image] at mem
    have code := toNat_of_ofNat (List.mem_singleton.mp mem) some
    have table := upperRuns_ascii run listed
    omega
  · rw [image] at mem
    obtain ⟨n, mem, same⟩ := List.mem_map.mp mem
    have code := toNat_of_ofNat same.symm some
    have table := (upperExpansions_ascii entry listed).2 n mem
    omega

theorem capital_mem_upperChar {c : Char} (mem : 'O' ∈ upperChar c) : c = 'o' ∨ c = 'O' := by
  have capital : 'O'.toNat = 0x4f := rfl
  rcases upperChar_cases c with self | ⟨run, listed, least, greatest, image⟩ | ⟨entry, listed, image⟩
  · rw [self] at mem
    exact .inr (List.mem_singleton.mp mem).symm
  · rw [image] at mem
    have code := toNat_of_ofNat (List.mem_singleton.mp mem) (by decide)
    have shift := upperRuns_capital run listed (by omega) (by omega)
    have small : c.toNat = 'o'.toNat := by
      have : 'o'.toNat = 0x6f := rfl
      omega
    exact .inl (Char.toNat_inj.mp small)
  · rw [image] at mem
    obtain ⟨n, mem, same⟩ := List.mem_map.mp mem
    have code := toNat_of_ofNat same.symm (by decide)
    have table := (upperExpansions_ascii entry listed).2 n mem
    omega

theorem small_bounds {c : Char} (small : c.isLower = true) : 0x61 ≤ c.toNat ∧ c.toNat ≤ 0x7a := by
  have bounds := Bool.and_eq_true_iff.mp small
  exact ⟨of_decide_eq_true bounds.1, of_decide_eq_true bounds.2⟩

theorem upperChar_ne_self {c : Char} (small : c.isLower = true) : upperChar c ≠ [c] := by
  have letters : ∀ n < 0x80, (Char.ofNat n).isLower = true →
      upperChar (Char.ofNat n) ≠ [Char.ofNat n] := by
    decide +kernel
  have ascii : c.toNat < 0x80 := Nat.lt_of_le_of_lt (small_bounds small).2 (by decide)
  simpa using letters c.toNat ascii (by simpa using small)

theorem small_not_mem_upperChar {c : Char} (small : c.isLower = true) (d : Char) :
    c ∉ upperChar d := by
  intro mem
  have bounds := small_bounds small
  rcases mem_upperChar_ascii mem (by omega) (by omega) with ⟨self, rfl⟩ | capital
  · exact upperChar_ne_self small self
  · omega

end Text

section
variable {s t : List Char} {c : Char}

theorem camelChars_cons_plain (plain : isSeparator c = false) (s : List Char) :
    camelChars (c :: s) = c :: camelChars s := by
  cases s with
  | nil => rfl
  | cons next rest => simp [camelChars, plain]

theorem camelChars_ne_nil (some : s ≠ []) : camelChars s ≠ [] := by
  cases s using camelChars.fun_cases with
  | case1 => exact absurd rfl some
  | case2 c => simp [camelChars]
  | case3 c next rest consumed => simp [camelChars, consumed, Text.upperChar_ne_nil]
  | case4 c next rest kept => simp [camelChars, kept]

theorem camelChars_append_mark (s : List Char) :
    camelChars (s ++ ['=']) = camelChars s ++ ['='] := by
  have mark : isWordChar '=' = false := by decide
  fun_induction camelChars s with
  | case1 => rfl
  | case2 c => simp [camelChars, mark]
  | case3 c next rest consumed ih => simp [camelChars, consumed, ih]
  | case4 c next rest kept ih => simpa [camelChars, kept] using ih

theorem mark_not_mem_upperChar {next : Char} (word : isWordChar next = true) :
    '=' ∉ Text.upperChar next := by
  intro mem
  rcases Text.mem_upperChar_ascii mem (by decide) (by decide) with ⟨_, rfl⟩ | capital
  · exact absurd word (by decide)
  · exact absurd capital (by decide)

theorem getLast?_camelChars (s : List Char) :
    (camelChars s).getLast? = some '=' ↔ s.getLast? = some '=' := by
  fun_induction camelChars s with
  | case1 => rfl
  | case2 c => rfl
  | case3 c next rest consumed ih =>
    have word := (Bool.and_eq_true_iff.mp consumed).2
    cases rest with
    | nil =>
      have other : next ≠ '=' := by
        rintro rfl
        exact absurd word (by decide)
      have absent : (Text.upperChar next).getLast? ≠ some '=' := fun last =>
        mark_not_mem_upperChar word (List.mem_of_getLast? last)
      simp [camelChars, absent, other]
    | cons d rest =>
      have some := camelChars_ne_nil (List.cons_ne_nil d rest)
      simp [some, ih]
  | case4 c next rest kept ih =>
    have some := camelChars_ne_nil (List.cons_ne_nil next rest)
    obtain ⟨d, image, eq⟩ := List.exists_cons_of_ne_nil some
    rw [eq, List.getLast?_cons_cons, ← eq, ih, List.getLast?_cons_cons]

/-- What text a camel-cased text comes from: one with the same first character, or one with a
separator and a character that has it in its upper case form. -/
theorem camelChars_eq_cons (eq : camelChars s = c :: t) :
    (∃ rest, s = c :: rest ∧ camelChars rest = t ∧
      (isSeparator c = true → ∀ next ∈ rest.head?, isWordChar next = false)) ∨
    ∃ sep next rest more, s = sep :: next :: rest ∧ isSeparator sep = true ∧
      isWordChar next = true ∧ Text.upperChar next = c :: more ∧ t = more ++ camelChars rest := by
  cases s using camelChars.fun_cases with
  | case1 => cases eq
  | case2 c =>
    cases eq
    exact .inl ⟨[], rfl, rfl, by simp⟩
  | case3 sep next rest consumed =>
    obtain ⟨separates, word⟩ := Bool.and_eq_true_iff.mp consumed
    obtain ⟨d, more, image⟩ := List.exists_cons_of_ne_nil (Text.upperChar_ne_nil next)
    rw [camelChars, if_pos consumed, image] at eq
    obtain ⟨rfl, rfl⟩ := List.cons.inj eq
    exact .inr ⟨sep, next, rest, more, rfl, separates, word, image, rfl⟩
  | case4 d next rest kept =>
    rw [camelChars, if_neg kept] at eq
    obtain ⟨rfl, rfl⟩ := List.cons.inj eq
    exact .inl ⟨next :: rest, rfl, rfl, by simpa using kept⟩

theorem not_separator_of_small (small : c.isLower = true) : isSeparator c = false := by
  have bounds := Text.small_bounds small
  have apart (d : Char) (below : d.toNat < 0x61 := by decide) : c ≠ d := by
    rintro rfl
    omega
  simp [isSeparator, apart ' ', apart '_', apart '-']

theorem camelChars_eq_append {front : List Char} (small : ∀ c ∈ front, c.isLower = true) :
    camelChars s = front ++ t ↔ ∃ rest, s = front ++ rest ∧ camelChars rest = t := by
  induction front generalizing s with
  | nil => simp
  | cons c front ih =>
    have letter := small c List.mem_cons_self
    have others : ∀ d ∈ front, d.isLower = true := fun d mem =>
      small d (List.mem_cons_of_mem c mem)
    constructor
    · intro eq
      rcases camelChars_eq_cons eq with ⟨rest, rfl, later, _⟩ | ⟨_, next, _, _, _, _, _, image, _⟩
      · obtain ⟨rest, rfl, begun⟩ := (ih others).mp later
        exact ⟨rest, rfl, begun⟩
      · exact absurd (image ▸ List.mem_cons_self) (Text.small_not_mem_upperChar letter next)
    · rintro ⟨rest, rfl, eq⟩
      have later := (ih others).mpr ⟨rest, rfl, eq⟩
      rw [List.cons_append, camelChars_cons_plain (not_separator_of_small letter), later]
      rfl

theorem camelChars_small (small : ∀ c ∈ t, c.isLower = true) : camelChars s = t ↔ s = t := by
  have parts := camelChars_eq_append (s := s) (t := []) small
  rw [List.append_nil] at parts
  rw [parts]
  constructor
  · rintro ⟨rest, rfl, empty⟩
    cases rest with
    | nil => exact List.append_nil t
    | cons d rest => exact absurd empty (camelChars_ne_nil (List.cons_ne_nil d rest))
  · intro eq
    exact ⟨[], by rw [eq, List.append_nil], rfl⟩

end

end Accessors
