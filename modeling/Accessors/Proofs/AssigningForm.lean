import Accessors.Proofs.InstructionGrammar
import Accessors.Proofs.Replacement

/-! Reading and assigning forms of an instruction. A method or an operator followed by `=` does
what it does without, and only what becomes of the result is another thing: a basic property
returns it in one case, and stores it in the other. Main statement: `assigning_form_agrees`. -/

namespace Accessors

/-- What an instruction computes on the current value: what a member gives, whichever the name
stands for, or the arguments put together with an operator. -/
inductive Computation where
  | member (name : String)
  | fold (op : Operator)

def Computation.run (e : Engine) (current : Value) (args : List Value)
    (owner : Option Constructor) : Computation → Action Value
  | member name => do Callee.call e current name args ((← get).callee? current owner name)
  | fold op => do applySteps e op ((← get).override? owner op) current args

/-- The methods other than `new`, and the operators with arguments: what they compute, and whether
it is to be written. -/
inductive Instruction.Computing (args : List Value) : Instruction → Computation → Bool → Prop
  | method {name : String} (named : name ≠ "new") (assign : Bool) :
    Computing args (.method name assign) (.member name) assign
  | operator (given : args ≠ []) (op : Operator) (assign : Bool) :
    Computing args (.operator op assign) (.fold op) assign

namespace Instruction
variable {text : String} (unmarked : text.toList.getLast? ≠ some '=')
include unmarked

theorem parse_method_append_mark {name : String} {assign : Bool}
    (reads : parse text = .method name assign) :
    assign = false ∧ parse (text ++ "=") = .method name true := by
  obtain ⟨r, stem, rfl, single, eq, ends, rfl⟩ := parse_eq_iff.mp reads
  have last : r.toList.getLast? ≠ some '=' := fun marked =>
    unmarked (by simp [List.getLast?_cons, marked])
  have reading : assign = false := by simpa [last] using ends
  subst reading
  have whole : r = stem := by simpa [mark] using eq
  have start : (r ++ "=").toList.head? ≠ some '#' := by
    rw [String.toList_append, List.head?_append]
    cases first : r.toList.head? with
    | none => decide
    | some c => simpa [first] using single
  have spelled : (method (camel stem) true).Spelled (("#" ++ r) ++ "=") :=
    ⟨r ++ "=", r, String.append_assoc, start, rfl, by simp, by rw [whole]⟩
  exact ⟨rfl, parse_eq_iff.mpr spelled⟩

theorem parse_operator_append_mark {op : Operator} {assign : Bool}
    (reads : parse text = .operator op assign) :
    assign = false ∧ parse (text ++ "=") = .operator op true := by
  have symbol : text = op.symbol ++ mark assign := parse_eq_iff.mp reads
  have reading : assign = false := by
    simpa [symbol] using mt (Operator.getLast?_symbol op assign).mpr (symbol ▸ unmarked)
  subst reading
  have bare : text = op.symbol := by simpa [mark] using symbol
  exact ⟨rfl, bare ▸ op.parse_symbol_assign⟩

theorem Computing.append_mark {args : List Value} {c : Computation} {assign : Bool}
    (computes : (parse text).Computing args c assign) :
    assign = false ∧ (parse (text ++ "=")).Computing args c true := by
  generalize reads : parse text = i at computes
  cases computes with
  | method named assign =>
    obtain ⟨reading, writes⟩ := parse_method_append_mark unmarked reads
    exact ⟨reading, writes ▸ .method named true⟩
  | operator given op assign =>
    obtain ⟨reading, writes⟩ := parse_operator_append_mark unmarked reads
    exact ⟨reading, writes ▸ .operator given op true⟩

end Instruction

section
variable {text : String} {args : List Value} {c : Computation} {assign : Bool} {current : Value}
  {w : World}

theorem evaluate_computing (e : Engine) (present : current.isNullish = false)
    (computes : (Instruction.parse text).Computing args c assign) (owner : Option Constructor) :
    (evaluate e current (.str text) args owner).run w =
      (c.run e current args owner >>= fun v => pure (Outcome.of v assign)).run w := by
  generalize reads : Instruction.parse text = i at computes
  cases computes with
  | method named assign =>
    rw [evaluate_method_run e present reads named]
    rfl
  | operator given op assign =>
    rw [evaluate_operator e present reads given]
    rfl

/-- A basic property of an instance, called with what computes a value: it returns the value, or
stores it and returns the instance. -/
theorem Property.call_computing {e : Engine} {p : Property} {slot : StorageKey} {default : Value}
    {policy : ClonePolicy} (basic : p.kind = .basic slot default policy) {w₀ : World} {r : Ref}
    (reads : (p.invoke e (.entity r) []).run w₀ = .ok current w)
    (present : current.isNullish = false)
    (computes : (Instruction.parse text).Computing args c assign) :
    (p.invoke e (.entity r) (.str text :: args)).run w₀ =
      match (c.run e current args none).run w with
      | .ok v w' => if assign then .ok (.entity r) (w'.after (setSlot r slot v)) else .ok v w'
      | .error stop w' => .error stop w' := by
  have descends : p.kind.Descends := by rw [basic]; trivial
  have own : p.kind.owner = none := by rw [basic]; rfl
  rw [p.invoke_descends descends, EStateM.run_bind, reads, own]
  dsimp only
  rw [EStateM.run_bind, evaluate_computing _ present computes, EStateM.run_bind]
  cases (c.run e current args none).run w with
  | error stop w' => rfl
  | ok v w' =>
    cases assign with
    | false => rfl
    | true =>
      rw [basic]
      rfl

end

/-- A method other than `new`, or an operator with arguments, that does not end in `=`. It and the
same text with `=` after it run the same computation on a value that is neither undefined nor null,
and so end in the same state, with the same reports, and in the same errors: one reads the value
that the other writes. On a basic property one returns that value; the other stores it in the
property's slot, and returns the instance. -/
theorem assigning_form_agrees {e : Engine} (orderly : e.Orderly) {text : String}
    (unmarked : text.toList.getLast? ≠ some '=') {args : List Value} {c : Computation} {assign : Bool}
    (computes : (Instruction.parse text).Computing args c assign) {current : Value}
    (present : current.isNullish = false) (w : World) :
    (∀ owner,
      let reading := (evaluate e current (.str text) args owner).run w
      let writing := (evaluate e current (.str (text ++ "=")) args owner).run w
      reading = (c.run e current args owner >>= fun v => pure (.read v)).run w ∧
      writing = (c.run e current args owner >>= fun v => pure (.write v)).run w ∧
      (∀ v w', reading = .ok (.read v) w' ↔ writing = .ok (.write v) w') ∧
      ∀ stop w', reading = .error stop w' ↔ writing = .error stop w') ∧
    ∀ (p : Property) (slot : StorageKey) (default : Value) (policy : ClonePolicy) (w₀ : World)
      (r : Ref) (t : TypeId), p.kind = .basic slot default policy → w₀.typeId? r = some t →
      (p.invoke e (.entity r) []).run w₀ = .ok current w →
      let returned := (p.invoke e (.entity r) (.str text :: args)).run w₀
      let stored := (p.invoke e (.entity r) (.str (text ++ "=") :: args)).run w₀
      (∀ v w', returned = .ok v w' → ∃ w'', stored = .ok (.entity r) w'' ∧
        w'' = w'.after (setSlot r slot v) ∧ w''.slot? r slot = some v) ∧
      ∀ stop w', returned = .error stop w' ↔ stored = .error stop w' := by
  obtain ⟨rfl, writes⟩ := Instruction.Computing.append_mark unmarked computes
  constructor
  · intro owner reading writing
    have read : reading = _ := evaluate_computing e present computes owner
    have write : writing = _ := evaluate_computing e present writes owner
    refine ⟨read, write, ?_⟩
    rw [read, write]
    -- both run the same computation, and differ in what they make of its value
    simp only [EStateM.run_bind]
    cases (c.run e current args owner).run w with
    | ok v w' => simp [Outcome.of]
    | error stop w' => simp
  · intro p slot default policy w₀ r t basic owner reads returned stored
    have returns : returned = _ := p.call_computing basic reads present computes
    have stores : stored = _ := p.call_computing basic reads present writes
    have steps := orderly.performWith (.invoke p (.entity r) (.str text :: args)) w₀.types
    rw [stores]
    constructor
    · intro v w' returned_ok
      have kept : w'.typeId? r = some t := by
        rw [← World.after_eq_of_ok returned_ok]
        exact steps.typeId rfl owner
      rw [returns] at returned_ok
      cases ran : (c.run e current args none).run w <;> rw [ran] at returned_ok <;>
        cases returned_ok
      exact ⟨_, rfl, rfl, World.slot?_of_set kept slot v⟩
    · intro stop w'
      rw [returns]
      cases (c.run e current args none).run w <;> simp

/-- A text, by default `a`, with `b` appended: `+` returns it, `+=` stores it. -/
theorem appended_text_returned_or_stored :
    let w : World :=
      { World.initial with types := #[.bare "T"], objects := #[.entity ⟨0, .empty, []⟩] }
    let p : Property := ⟨9, .basic (.generated 0) (.str "a") .identity⟩
    ∃ w' w'', (p.invoke (engine 1) (.entity 0) [.str "+", .str "b"]).run w =
        .ok (.str "ab") w' ∧
      (p.invoke (engine 1) (.entity 0) [.str "+=", .str "b"]).run w = .ok (.entity 0) w'' ∧
      w''.slot? 0 (.generated 0) = some (.str "ab") := by
  intro w p
  have reads : Instruction.parse "+" = .operator .add false := Operator.add.parse_symbol
  have computes : (Instruction.parse "+").Computing [.str "b"] (.fold .add) false :=
    reads ▸ .operator (by simp) .add false
  have present : (Value.str "a").isNullish = false := rfl
  have agrees := assigning_form_agrees (engine_orderly 1) (by decide) computes present
    (w.after (setSlot 0 (.generated 0) (.str "a")))
  have returned : (p.invoke (engine 1) (.entity 0) [.str "+", .str "b"]).run w =
      .ok (.str "ab") (w.after (setSlot 0 (.generated 0) (.str "a"))) := rfl
  obtain ⟨w'', stored, _, held⟩ := (agrees.2 p _ _ _ w 0 0 rfl rfl rfl).1 _ _ returned
  exact ⟨_, w'', returned, stored, held⟩

end Accessors
