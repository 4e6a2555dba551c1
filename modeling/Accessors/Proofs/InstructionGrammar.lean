import Accessors.Proofs.CamelCase

/-! The grammar of instructions, as a relation between a text and what it reads as. A text reads
as a literal, an operator or a method just when it is written as one, and as a key otherwise. Main
statement: `instruction_grammar`. -/

namespace Accessors

/-- What an instruction ends in when its result is to be written. -/
def mark (assign : Bool) : String :=
  if assign then "=" else ""

def Instruction.Spelled (text : String) : Instruction → Prop
  | .literal t => text = "#" ++ t ∧ t.toList.head? = some '#'
  | .operator op assign => text = op.symbol ++ mark assign
  | .method name assign =>
    ∃ r stem, text = "#" ++ r ∧ r.toList.head? ≠ some '#' ∧ r = stem ++ mark assign ∧
      (assign = true ↔ r.toList.getLast? = some '=') ∧ name = camel stem
  | .key t =>
    t = text ∧ text.toList.head? ≠ some '#' ∧ ∀ op assign, text ≠ Operator.symbol op ++ mark assign

theorem stripAssignment_eq_iff {s front : List Char} {assign : Bool} :
    stripAssignment s = (front, assign) ↔
      s = front ++ (mark assign).toList ∧ (assign = true ↔ s.getLast? = some '=') := by
  by_cases ends : s.getLast? = some '='
  · obtain ⟨before, rfl⟩ := List.getLast?_eq_some_iff.mp ends
    rw [stripAssignment_append]
    cases assign <;> simp [mark, eq_comm]
  · rw [stripAssignment_self ends]
    cases assign <;> simp [mark, ends]

theorem stripAssignment_camelChars {s name : List Char} {assign : Bool} :
    stripAssignment (camelChars s) = (name, assign) ↔
      ∃ stem, s = stem ++ (mark assign).toList ∧ (assign = true ↔ s.getLast? = some '=') ∧
        name = camelChars stem := by
  rw [stripAssignment_eq_iff, getLast?_camelChars]
  cases assign with
  | false => simp [mark, eq_comm, and_comm]
  | true =>
    constructor
    · rintro ⟨cased, ends⟩
      obtain ⟨stem, rfl⟩ := List.getLast?_eq_some_iff.mp (ends.mp rfl)
      rw [camelChars_append_mark] at cased
      exact ⟨stem, rfl, ends, (List.append_cancel_right cased).symm⟩
    · rintro ⟨stem, rfl, ends, rfl⟩
      exact ⟨camelChars_append_mark stem, ends⟩

theorem camel_append_mark (stem : String) : camel (stem ++ "=") = camel stem ++ "=" := by
  simp [camel, camelChars_append_mark]

theorem getLast?_camel (r : String) :
    (camel r).toList.getLast? = some '=' ↔ r.toList.getLast? = some '=' := by
  simp [camel, getLast?_camelChars]

namespace Operator

theorem symbol_unmarked (op : Operator) (assign : Bool) :
    (op.symbol ++ mark assign).toList.head? ≠ some '#' := by
  cases op <;> cases assign <;> decide

theorem getLast?_symbol (op : Operator) (assign : Bool) :
    (op.symbol ++ mark assign).toList.getLast? = some '=' ↔ assign = true := by
  cases op <;> cases assign <;> decide

theorem stripAssignment_symbol {text : String} {op : Operator} {assign : Bool} :
    stripAssignment text.toList = (op.symbol.toList, assign) ↔ text = op.symbol ++ mark assign := by
  rw [stripAssignment_eq_iff, ← String.toList_append, String.toList_inj]
  constructor
  · exact And.left
  · rintro rfl
    exact ⟨rfl, (getLast?_symbol op assign).symm⟩

theorem ofSymbol?_stripAssignment {text : String} {op : Operator} :
    ofSymbol? (String.ofList (stripAssignment text.toList).1) = some op ↔
      text = op.symbol ++ mark (stripAssignment text.toList).2 := by
  rw [ofSymbol?_eq_some, ← stripAssignment_symbol, ← String.toList_inj, String.toList_ofList]
  simp [Prod.ext_iff, eq_comm]

end Operator

namespace Instruction
variable {text : String}

theorem parse_literal {rest : List Char} (marked : text.toList = '#' :: '#' :: rest) :
    parse text = .literal (String.ofList ('#' :: rest)) := by
  simp [parse, marked]

theorem parse_method {rest name : List Char} {assign : Bool} (marked : text.toList = '#' :: rest)
    (single : rest.head? ≠ some '#')
    (parts : stripAssignment (camelChars rest) = (name, assign)) :
    parse text = .method (String.ofList name) assign := by
  unfold parse
  rw [marked]
  split
  · simp_all
  · simp_all
  · simp_all

theorem parse_unmarked (unmarked : text.toList.head? ≠ some '#') :
    parse text =
      match Operator.ofSymbol? (String.ofList (stripAssignment text.toList).1) with
      | some op => .operator op (stripAssignment text.toList).2
      | none => .key text := by
  unfold parse
  split
  · simp_all
  · simp_all
  · rfl

theorem spelled_parse (text : String) : (parse text).Spelled text := by
  by_cases hash : text.toList.head? = some '#'
  · obtain ⟨rest, marked⟩ := List.head?_eq_some_iff.mp hash
    have whole : text = "#" ++ String.ofList rest := by
      rw [← String.toList_inj, marked]
      simp
    by_cases double : rest.head? = some '#'
    · obtain ⟨rest, rfl⟩ := List.head?_eq_some_iff.mp double
      rw [parse_literal marked]
      exact ⟨whole, by simp⟩
    · cases parts : stripAssignment (camelChars rest) with
      | mk name assign =>
        obtain ⟨stem, rfl, ends, rfl⟩ := stripAssignment_camelChars.mp parts
        rw [parse_method marked double parts]
        exact ⟨_, String.ofList stem, whole, by simpa using double, by simp, by simpa using ends,
          by simp [camel]⟩
  · rw [parse_unmarked hash]
    cases reads : Operator.ofSymbol? (String.ofList (stripAssignment text.toList).1) with
    | some op => exact Operator.ofSymbol?_stripAssignment.mp reads
    | none =>
      refine ⟨rfl, hash, fun op assign eq => ?_⟩
      rw [Operator.stripAssignment_symbol.mpr eq, String.ofList_toList,
        Operator.ofSymbol?_symbol] at reads
      cases reads

theorem parse_of_spelled {i : Instruction} (spelled : i.Spelled text) : parse text = i := by
  cases i with
  | literal t =>
    obtain ⟨rfl, hash⟩ := spelled
    obtain ⟨rest, marked⟩ := List.head?_eq_some_iff.mp hash
    have whole : ("#" ++ t).toList = '#' :: '#' :: rest := by simp [marked]
    rw [parse_literal whole, ← marked, String.ofList_toList]
  | method name assign =>
    obtain ⟨r, stem, rfl, single, eq, ends, rfl⟩ := spelled
    have parts : stripAssignment (camelChars r.toList) = (camelChars stem.toList, assign) :=
      stripAssignment_camelChars.mpr ⟨stem.toList, by simp [eq], ends, rfl⟩
    exact parse_method (by simp) single parts
  | operator op assign =>
    subst spelled
    rw [parse_unmarked (Operator.symbol_unmarked op assign),
      Operator.stripAssignment_symbol.mpr rfl, String.ofList_toList, Operator.ofSymbol?_symbol]
  | key t =>
    obtain ⟨rfl, hash, other⟩ := spelled
    rw [parse_unmarked hash]
    cases reads : Operator.ofSymbol? (String.ofList (stripAssignment t.toList).1) with
    | none => rfl
    | some op =>
      exact absurd (Operator.ofSymbol?_stripAssignment.mp reads) (other op _)

theorem parse_eq_iff {i : Instruction} : parse text = i ↔ i.Spelled text := by
  constructor
  · rintro rfl
    exact spelled_parse text
  · exact parse_of_spelled

end Instruction

/-- A text is an instruction just when it is spelled so: what stands before the final `=` names
an operator by its symbol, and a method in camel case. Camel case leaves the final `=` where it
is, and makes none. -/
theorem instruction_grammar (text : String) :
    (∀ t, Instruction.parse text = .literal t ↔ text = "#" ++ t ∧ t.toList.head? = some '#') ∧
    (∀ op assign, Instruction.parse text = .operator op assign ↔ text = op.symbol ++ mark assign) ∧
    (∀ op assign op' assign',
      Operator.symbol op ++ mark assign = Operator.symbol op' ++ mark assign' →
        op = op' ∧ assign = assign') ∧
    (∀ name assign, Instruction.parse text = .method name assign ↔
      ∃ r stem, text = "#" ++ r ∧ r.toList.head? ≠ some '#' ∧ r = stem ++ mark assign ∧
        (assign = true ↔ r.toList.getLast? = some '=') ∧ name = camel stem) ∧
    (∀ t, Instruction.parse text = .key t ↔ t = text ∧ text.toList.head? ≠ some '#' ∧
      ∀ op assign, text ≠ Operator.symbol op ++ mark assign) ∧
    (∀ r, (camel r).toList.getLast? = some '=' ↔ r.toList.getLast? = some '=') ∧
    ∀ stem, camel (stem ++ "=") = camel stem ++ "=" := by
  refine ⟨fun t => Instruction.parse_eq_iff, fun op assign => Instruction.parse_eq_iff, ?_,
    fun name assign => Instruction.parse_eq_iff, fun t => Instruction.parse_eq_iff, getLast?_camel,
    camel_append_mark⟩
  intro op assign op' assign' eq
  have one : Instruction.parse _ = .operator op assign := Instruction.parse_eq_iff.mpr rfl
  have other : Instruction.parse _ = .operator op' assign' := Instruction.parse_eq_iff.mpr eq
  exact Instruction.operator.inj (one.symm.trans other)

example : Instruction.parse "#set_start-time=" = .method "setStartTime" true := by decide +kernel

end Accessors
