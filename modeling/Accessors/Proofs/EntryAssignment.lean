import Accessors.Engine.Depth
import Accessors.Proofs.Shape

/-! Assigning an entry of a collection through an operator. What is evaluated on the entry
comes back as a write, and the property that holds the collection takes it for a write of
its own: the result lands in the slot, in place of the collection, and the entry stays. -/

namespace Accessors

namespace Value

def isScalar : Value → Bool
  | bool _ | number _ | str _ => true
  | _ => false

def isContainer : Value → Bool
  | seq _ | record _ => true
  | _ => false

theorem isScalar_of_isContainer {v : Value} (h : v.isContainer = true) : v.isScalar = false := by
  cases v <;> first | rfl | cases h

theorem isEntity_of_isScalar {v : Value} (h : v.isScalar = true) : v.isEntity = false := by
  cases v <;> first | rfl | cases h

theorem isNullish_of_isScalar {v : Value} (h : v.isScalar = true) : v.isNullish = false := by
  cases v <;> first | rfl | cases h

/-- Keys that are no instructions: numbers, and texts that read as keys. -/
def isPlainKey : Value → Bool
  | number _ => true
  | str text => decide (Instruction.parse text = .key text)
  | _ => false

def isKey : Value → Bool
  | number _ | str _ => true
  | _ => false

theorem isKey_of_isPlainKey {key : Value} (plain : key.isPlainKey = true) : key.isKey = true := by
  cases key <;> first | rfl | cases plain

end Value

namespace Operator

theorem parse_symbol (op : Operator) : Instruction.parse op.symbol = .operator op false := by
  cases op <;> decide

theorem parse_symbol_assign (op : Operator) :
    Instruction.parse (op.symbol ++ "=") = .operator op true := by
  cases op <;> decide

def fold (op : Operator) (w : World) (start : Value) (operands : List Value) : Value :=
  operands.foldl (op.apply w) start

end Operator

theorem World.ownMethod?_apply {w : World} {op : Operator} {lhs rhs : Value} {name : String}
    (left : w.ownMethod? lhs name = none) (right : w.ownMethod? rhs name = none) :
    w.ownMethod? (op.apply w lhs rhs) name = none := by
  cases op with
  | or | and =>
    simp only [Operator.apply]
    split <;> assumption
  | add | reverseAdd =>
    simp only [Operator.apply, World.add]
    split <;> exact w.ownMethod?_plain rfl name
  | _ =>
    simp only [Operator.apply]
    exact w.ownMethod?_plain rfl name

/-- No value that the built-in operator comes to has a method of its symbol where an operand is left
to be taken. -/
def Operator.Unclaimed (op : Operator) (w : World) : Value → List Value → Prop
  | _, [] => True
  | running, operand :: rest =>
    w.ownMethod? running op.symbol = none ∧ Unclaimed op w (op.apply w running operand) rest

theorem Operator.unclaimed_of_plain {op : Operator} {w : World} {running : Value}
    {operands : List Value} (first : w.ownMethod? running op.symbol = none)
    (others : ∀ x ∈ operands, w.ownMethod? x op.symbol = none) :
    op.Unclaimed w running operands := by
  induction operands generalizing running with
  | nil => trivial
  | cons operand rest ih =>
    obtain ⟨own, others⟩ := List.forall_mem_cons.mp others
    exact ⟨first, ih (World.ownMethod?_apply first own) others⟩

theorem applySteps_unclaimed (e : Engine) {op : Operator} {w : World} {running : Value}
    {operands : List Value} (unclaimed : op.Unclaimed w running operands) :
    (applySteps e op none running operands).run w = .ok (op.fold w running operands) w := by
  induction operands generalizing running with
  | nil => rfl
  | cons operand rest ih =>
    obtain ⟨plain, later⟩ := unclaimed
    have step : (applyStep e op none running operand).run w =
        .ok (op.apply w running operand) w := by
      unfold applyStep
      rw [EStateM.run_bind, EStateM.run_get]
      simp only [plain]
      rfl
    unfold applySteps
    rw [EStateM.run_bind, step]
    exact ih later

theorem applySteps_eq (e : Engine) (op : Operator) {w : World} {running : Value}
    {operands : List Value} (first : w.ownMethod? running op.symbol = none)
    (others : ∀ x ∈ operands, w.ownMethod? x op.symbol = none) :
    (applySteps e op none running operands).run w = .ok (op.fold w running operands) w :=
  applySteps_unclaimed e (Operator.unclaimed_of_plain first others)

theorem evaluate_operator (e : Engine) {op : Operator} {assign : Bool} {current : Value}
    (present : current.isNullish = false) {text : String}
    (reads : Instruction.parse text = .operator op assign) {args : List Value} (given : args ≠ [])
    (owner : Option Constructor) :
    evaluate e current (.str text) args owner = applyOperator e current op assign args owner := by
  obtain ⟨first, rest, rfl⟩ := List.exists_cons_of_ne_nil given
  unfold evaluate evaluateWith
  simp only [present, reads]
  rfl

/-- An operator on a scalar, when neither it nor its operands are entities with a method of
that name: the fold, to be read or to be written. -/
theorem evaluate_operator_eq (e : Engine) (op : Operator) (assign : Bool) {text : String}
    (reads : Instruction.parse text = .operator op assign) {w : World} {v : Value}
    (scalar : v.isScalar = true) {operands : List Value} (some : operands ≠ [])
    (plain : ∀ x ∈ operands, w.ownMethod? x op.symbol = none) :
    (evaluate e v (.str text) operands none).run w =
      .ok (.of (op.fold w v operands) assign) w := by
  have present := Value.isNullish_of_isScalar scalar
  have own := w.ownMethod?_plain (Value.isEntity_of_isScalar scalar) op.symbol
  have steps := applySteps_eq e op own plain
  rw [evaluate_operator e present reads some]
  show EStateM.run (applySteps e op none v operands >>= fun u => pure (Outcome.of u assign)) w = _
  rw [EStateM.run_bind, steps]
  rfl

theorem World.findProperty?_container (w : World) {c : Value} (container : c.isContainer = true)
    (name : String) : w.findProperty? c none name = none := by
  cases c <;> first | rfl | cases container

theorem accessKey_descends {w : World} {c key : Value}
    (present : (w.getKey c key).isNullish = false) (first second : Value) (rest : List Value)
    (next : Value → Option Constructor → Action Outcome) :
    (accessKey c key (first :: second :: rest) next).run w =
      (next (w.getKey c key) none).run w := by
  unfold accessKey
  rw [EStateM.run_bind, EStateM.run_get]
  simp only [present]
  rfl

/-- A key under which keyed access finds an entry of the value: no instruction, and not the
name of one of its properties. -/
structure World.Passes (w : World) (c key : Value) : Prop where
  keyed : c.isKeyed = true
  plain : key.isPlainKey = true
  unnamed : ∀ name, key = .str name → w.findProperty? c none name = none

theorem World.passes_container (w : World) {c key : Value} (container : c.isContainer = true)
    (plain : key.isPlainKey = true) : w.Passes c key where
  keyed := by cases c <;> first | rfl | cases container
  plain := plain
  unnamed name _ := w.findProperty?_container container name

theorem evaluateWith_passes (e : Engine) {w : World} {c key : Value} (passes : w.Passes c key)
    (args : List Value) (next : Value → Option Constructor → Action Outcome)
    (call : Property → Action Value) :
    (evaluateWith e c key args none next call).run w = (accessKey c key args next).run w := by
  obtain ⟨keyed, plain, unnamed⟩ := passes
  have here : c.isNullish = false := by cases c <;> first | rfl | cases keyed
  unfold evaluateWith
  simp only [here, Bool.false_eq_true, if_false]
  cases key with
  | number n => simp only [evaluateKey, keyed, if_true]
  | str text =>
    have reads : Instruction.parse text = .key text := of_decide_eq_true plain
    simp only [reads, evaluateKey]
    rw [EStateM.run_bind, EStateM.run_get]
    simp only [unnamed text rfl, keyed, if_true]
  | _ => cases plain

theorem evaluate_passes (e : Engine) {w : World} {c key : Value} (passes : w.Passes c key)
    (present : (w.getKey c key).isNullish = false) (first second : Value) (rest : List Value) :
    (evaluate e c key (first :: second :: rest) none).run w =
      (evaluate e (w.getKey c key) first (second :: rest) none).run w := by
  unfold evaluate
  rw [evaluateWith_passes e passes]
  exact accessKey_descends present first second rest _

theorem evaluate_descends (e : Engine) {w : World} {c key : Value}
    (container : c.isContainer = true) (plain : key.isPlainKey = true)
    (present : (w.getKey c key).isNullish = false) (first second : Value) (rest : List Value) :
    (evaluate e c key (first :: second :: rest) none).run w =
      (evaluate e (w.getKey c key) first (second :: rest) none).run w :=
  evaluate_passes e (w.passes_container container plain) present first second rest

def basicEnding (r : Ref) (slot : StorageKey) (key : Value) (w : World) : Outcome → Ending Value
  | .read v => .ok v w
  | .write v => .ok (.entity r) (w.after (setSlot r slot v))
  | .request => .ok (.entity r) (w.after (setSlot r slot key))
  | .done => .ok (.entity r) w

/-- The property at the root handles whatever comes of the evaluation, however deep it
arose. -/
theorem invoke_basic_eq (e : Engine) {p : Property} {slot : StorageKey} {default : Value}
    {policy : ClonePolicy} (kind : p.kind = .basic slot default policy) {r : Ref} {w w₁ w₂ : World}
    {c key : Value} {rest : List Value} {outcome : Outcome}
    (reads : (readBasic r slot default policy).run w = .ok c w₁)
    (gives : (evaluate e c key rest none).run w₁ = .ok outcome w₂) :
    (p.invoke e (.entity r) (key :: rest)).run w = basicEnding r slot key w₂ outcome := by
  have received : (receiver (.entity r)).run w = .ok r w := rfl
  unfold Property.invoke
  simp only [kind, PropertyKind.invoke]
  rw [EStateM.run_bind, received]
  dsimp only
  rw [EStateM.run_bind, reads]
  dsimp only
  rw [EStateM.run_bind, gives]
  cases outcome <;> rfl

theorem World.display_key (w w' : World) {key : Value} (isKey : key.isKey = true) :
    w'.display key = w.display key := by
  cases key with
  | number n => rw [display_number, display_number]
  | str text => rw [display_str, display_str]
  | _ => cases isKey

theorem World.display_plainKey (w w' : World) {key : Value} (plain : key.isPlainKey = true) :
    w'.display key = w.display key :=
  w.display_key w' (Value.isKey_of_isPlainKey plain)

theorem World.getKey_setSlot (w : World) (r : Ref) (slot : StorageKey) (v : Value) {c key : Value}
    (container : c.isContainer = true) (plain : key.isPlainKey = true) :
    (w.after (setSlot r slot v)).getKey c key = w.getKey c key := by
  cases c with
  | seq s =>
    unfold getKey
    simp only [(SameOn.setSlot w r slot v).sequence s trivial]
  | record s =>
    unfold getKey
    simp only [(SameOn.setSlot w r slot v).fields s trivial, w.display_plainKey _ plain]
  | _ => cases container

/-- A basic property holds a collection, under a plain key a scalar, and the operator has an
operand or more, none of them with a method of the operator's name. Then the call that
assigns the entry returns the owner and changes one thing: the slot holds the result, which
the call without `=` reads. Collections keep all their entries, the one at the key among
them, and so it is never the slot that keeps the collection and the entry that gets the
result. -/
theorem entry_assignment_replaces_collection (e : Engine) {p : Property} {slot : StorageKey}
    {default : Value} {policy : ClonePolicy} (kind : p.kind = .basic slot default policy)
    {r : Ref} {w w₁ : World} {c : Value} (stands : (w₁.instance? r).isSome)
    (reads : (readBasic r slot default policy).run w = .ok c w₁) (container : c.isContainer = true)
    {key : Value} (plain : key.isPlainKey = true) (scalar : (w₁.getKey c key).isScalar = true)
    (op : Operator) {operands : List Value} (some : operands ≠ [])
    (builtin : ∀ x ∈ operands, w₁.ownMethod? x op.symbol = none) :
    ∃ w₂,
      (p.invoke e (.entity r) (key :: .str (op.symbol ++ "=") :: operands)).run w =
        .ok (.entity r) w₂ ∧
      (p.invoke e (.entity r) (key :: .str op.symbol :: operands)).run w =
        .ok (op.fold w₁ (w₁.getKey c key) operands) w₁ ∧
      w₂.slot? r slot = .some (op.fold w₁ (w₁.getKey c key) operands) ∧
      (∀ s, w₂.items s = w₁.items s ∧ w₂.fields s = w₁.fields s) ∧
      w₂.getKey c key = w₁.getKey c key ∧
      ¬ (w₂.slot? r slot = .some c ∧
        w₂.getKey c key = op.fold w₁ (w₁.getKey c key) operands) := by
  have present := Value.isNullish_of_isScalar scalar
  obtain ⟨operand, others, rfl⟩ := List.exists_cons_of_ne_nil some
  have descends (first : Value) := evaluate_descends e container plain present first operand others
  have assigned := invoke_basic_eq e kind reads ((descends _).trans
    (evaluate_operator_eq e op true op.parse_symbol_assign scalar some builtin))
  have read := invoke_basic_eq e kind reads ((descends _).trans
    (evaluate_operator_eq e op false op.parse_symbol scalar some builtin))
  have stored : (w₁.after (setSlot r slot (op.fold w₁ (w₁.getKey c key) (operand :: others)))).slot?
      r slot = .some (op.fold w₁ (w₁.getKey c key) (operand :: others)) := by
    rw [World.slot?_setSlot, if_pos ⟨rfl, rfl, stands⟩]
  have kept := w₁.getKey_setSlot r slot (op.fold w₁ (w₁.getKey c key) (operand :: others))
    container plain
  have same := World.SameOn.setSlot w₁ r slot (op.fold w₁ (w₁.getKey c key) (operand :: others))
  refine ⟨_, assigned, read, stored, fun s => ⟨?_, same.fields s trivial⟩, kept, ?_⟩
  · exact congrArg Array.toList (same.sequence s trivial)
  · rintro ⟨root, entry⟩
    rw [stored] at root
    rw [kept, Option.some.inj root] at entry
    rw [entry, Value.isScalar_of_isContainer container] at scalar
    cases scalar

/-- An instance whose slot holds a record with entries `x` and `y`: adding 3 to `x`. -/
theorem record_entry_assignment :
    let p : Property := ⟨9, .basic (.generated 0) .undefined .identity⟩
    let record : Table Value := Table.ofList [("x", .number 1), ("y", .number 2)]
    let owner : Instance := ⟨0, .empty, [(0, .record 1)]⟩
    let w := { World.initial with objects := #[.entity owner, .record record] }
    ∃ w₂,
      (p.invoke (engine 1) (.entity 0) [.str "x", .str "+=", .number 3]).run w =
        .ok (.entity 0) w₂ ∧
      (p.invoke (engine 1) (.entity 0) [.str "x", .str "+", .number 3]).run w =
        .ok (.number (1 + 3)) w ∧
      w₂.slot? 0 (.generated 0) = some (.number (1 + 3)) ∧
      (∀ s, w₂.items s = w.items s ∧ w₂.fields s = w.fields s) ∧
      w₂.getKey (.record 1) (.str "x") = .number 1 ∧
      ¬ (w₂.slot? 0 (.generated 0) = some (.record 1) ∧
        w₂.getKey (.record 1) (.str "x") = .number (1 + 3)) := by
  intro p record owner w
  have plain : (Value.str "x").isPlainKey = true := by decide
  have some : [Value.number 3] ≠ [] := by simp
  have builtin : ∀ x ∈ [Value.number 3], w.ownMethod? x Operator.add.symbol = none := by
    simp [World.ownMethod?]
  exact entry_assignment_replaces_collection (engine 1) (p := p) (w := w) (c := .record 1)
    rfl rfl rfl rfl plain rfl .add some builtin

/-- After that call the slot does not hold the record with the sum at `x`. -/
theorem record_entry_not_assigned :
    let p : Property := ⟨9, .basic (.generated 0) .undefined .identity⟩
    let record : Table Value := Table.ofList [("x", .number 1), ("y", .number 2)]
    let owner : Instance := ⟨0, .empty, [(0, .record 1)]⟩
    let w := { World.initial with objects := #[.entity owner, .record record] }
    ¬ ∃ w₂,
      (p.invoke (engine 1) (.entity 0) [.str "x", .str "+=", .number 3]).run w =
        .ok (.entity 0) w₂ ∧
      w₂.slot? 0 (.generated 0) = some (.record 1) ∧
      w₂.getKey (.record 1) (.str "x") = .number (1 + 3) := by
  intro p record owner w
  rintro ⟨w₂, ran, root, _⟩
  have sum : (evaluate (engine 1) (.record 1) (.str "x") [.str "+=", .number 3] none).run w =
      .ok (.write (.number (1 + 3))) w :=
    (evaluate_descends (engine 1) rfl (by decide) rfl (.str "+=") (.number 3) []).trans
      (evaluate_operator_eq (engine 1) .add true (Operator.parse_symbol_assign .add) rfl
        (by simp) (by simp [World.ownMethod?]))
  rw [invoke_basic_eq (engine 1) (p := p) (w := w) rfl rfl sum] at ran
  cases ran
  rw [World.slot?_setSlot, if_pos ⟨rfl, rfl, rfl⟩] at root
  cases root

end Accessors
