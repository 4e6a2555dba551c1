import Accessors.Proofs.AssigningForm

/-! Operators put their operands together from the left, one step after the other, and each step
looks up anew who is to take it: the running value's own method, the owner's override, or the
built-in meaning. So operands may be given in two parts, and the built-in operators are folds with a
plain form. Main statement: `operators_fold_left`. -/

namespace Accessors

namespace Operator

section
variable (e : Engine) (op : Operator) (owner : Option Constructor)

/-- One step of an operator: the running value's own method of its symbol takes the operand, else
the owner's override does, else it has the built-in meaning. -/
inductive Step (w : World) (running operand : Value) : Ending Value → Prop
  | own {body : Script} (found : w.ownMethod? running op.symbol = some body) :
    Step w running operand ((e.run body running [operand]).run w)
  | override {body : Script} (plain : w.ownMethod? running op.symbol = none)
    (found : w.override? owner op = some body) :
    Step w running operand ((e.run body .undefined [running, operand]).run w)
  | builtin (plain : w.ownMethod? running op.symbol = none) (none : w.override? owner op = none) :
    Step w running operand (.ok (op.apply w running operand) w)

/-- Steps from left to right, up to the first one that fails. -/
inductive Folds : World → Value → List Value → Ending Value → Prop
  | nil {w : World} {running : Value} : Folds w running [] (.ok running w)
  | cons {w w' : World} {running operand next : Value} {operands : List Value}
      {ending : Ending Value} (step : op.Step e owner w running operand (.ok next w'))
      (rest : Folds w' next operands ending) : Folds w running (operand :: operands) ending
  | stop {w w' : World} {running operand : Value} {operands : List Value} {stop : Stop}
      (step : op.Step e owner w running operand (.error stop w')) :
    Folds w running (operand :: operands) (.error stop w')

end

end Operator

section
variable {e : Engine} {op : Operator} {owner : Option Constructor} {w : World}

theorem applySteps_append (e : Engine) (op : Operator) (override : Option Script)
    (running : Value) (xs ys : List Value) :
    applySteps e op override running (xs ++ ys) =
      applySteps e op override running xs >>= fun v => applySteps e op override v ys := by
  induction xs generalizing running with
  | nil => rfl
  | cons x xs ih =>
    show (applyStep e op override running x >>= fun next =>
        applySteps e op override next (xs ++ ys)) =
      (applyStep e op override running x >>= fun next => applySteps e op override next xs) >>= _
    rw [bind_assoc]
    exact congrArg (applyStep e op override running x >>= ·) (funext ih)

theorem applyStep_step (e : Engine) (op : Operator) (owner : Option Constructor) (w : World)
    (running operand : Value) :
    op.Step e owner w running operand
      ((applyStep e op (w.override? owner op) running operand).run w) := by
  unfold applyStep
  rw [EStateM.run_bind, EStateM.run_get]
  dsimp only
  cases own : w.ownMethod? running op.symbol with
  | some body => exact .own own
  | none =>
    cases override : w.override? owner op with
    | some body => exact .override own override
    | none => exact .builtin own override

theorem Operator.Step.eq {running operand : Value} {ending : Ending Value}
    (step : op.Step e owner w running operand ending) :
    (applyStep e op (w.override? owner op) running operand).run w = ending := by
  unfold applyStep
  rw [EStateM.run_bind, EStateM.run_get]
  cases step with
  | own found => simp only [found]
  | override plain found => simp only [plain, found]
  | builtin plain none =>
    simp only [plain, none]
    rfl

theorem override?_kept {a : Action Value} (steps : Stepwise (.lenient w.types) a) {v : Value}
    {w' : World} (owner : Option Constructor) (ran : a.run w = .ok v w') :
    w'.override? owner op = w.override? owner op := by
  have types : (w.after a).types = w.types := steps.types rfl
  rw [World.after_eq_of_ok ran] at types
  unfold World.override? World.typeNamed
  rw [types]

theorem override?_after_step (orderly : e.Orderly) {override : Option Script}
    {running operand v : Value} {w' : World} (owner : Option Constructor)
    (ran : (applyStep e op override running operand).run w = .ok v w') :
    w'.override? owner op = w.override? owner op :=
  override?_kept (applyStep_stepwise (orderly w.types) op override running operand) owner ran

theorem applySteps_folds (orderly : e.Orderly) (running : Value) (operands : List Value) :
    op.Folds e owner w running operands
      ((applySteps e op (w.override? owner op) running operands).run w) := by
  induction operands generalizing running w with
  | nil => exact .nil
  | cons operand rest ih =>
    have step := applyStep_step e op owner w running operand
    unfold applySteps
    rw [EStateM.run_bind]
    cases ran : (applyStep e op (w.override? owner op) running operand).run w with
    | ok next w' =>
      rw [ran] at step
      refine .cons step ?_
      rw [← override?_after_step orderly owner ran]
      exact ih next
    | error stop w' =>
      rw [ran] at step
      exact .stop step

theorem Operator.Folds.eq (orderly : e.Orderly) {running : Value} {operands : List Value}
    {ending : Ending Value} (folds : op.Folds e owner w running operands ending) :
    (applySteps e op (w.override? owner op) running operands).run w = ending := by
  induction folds with
  | nil => rfl
  | cons step _ ih =>
    unfold applySteps
    rw [EStateM.run_bind, step.eq]
    rw [override?_after_step orderly owner step.eq] at ih
    exact ih
  | stop step =>
    unfold applySteps
    rw [EStateM.run_bind, step.eq]

end

namespace Operator
variable (w : World)

/-- An operator that keeps what is settled, and takes the operand otherwise, gives the first settled
value, or the last one. -/
theorem fold_of_settles {op : Operator} {settled : Value → Bool}
    (keeps : ∀ lhs rhs, op.apply w lhs rhs = if settled lhs then lhs else rhs) (v : Value)
    (operands : List Value) :
    op.fold w v operands =
      ((v :: operands).find? settled).getD
        ((v :: operands).getLast (List.cons_ne_nil v operands)) := by
  induction operands generalizing v with
  | nil => cases here : settled v <;> simp [fold, here]
  | cons operand rest ih =>
    show op.fold w (op.apply w v operand) rest = _
    rw [keeps, ih]
    cases here : settled v <;> simp [here]

theorem and_apply (lhs rhs : Value) :
    Operator.and.apply w lhs rhs = if !lhs.isTruthy then lhs else rhs := by
  show (if lhs.isTruthy then rhs else lhs) = _
  cases lhs.isTruthy <;> rfl

theorem add_str_left (s : String) (operand : Value) :
    w.add (.str s) operand = .str (s ++ w.display operand) := by
  show Value.str (w.display (.str s) ++ w.display operand) = _
  rw [w.display_str]

theorem add_str_right (operand : Value) (s : String) :
    w.add operand (.str s) = .str (w.display operand ++ s) := by
  have textual : (operand.isTextual || (Value.str s).isTextual) = true := by simp [Value.isTextual]
  unfold World.add
  rw [if_pos textual, w.display_str]

theorem fold_add (s : String) (operands : List Value) :
    Operator.add.fold w (.str s) operands = .str (s ++ String.join (operands.map w.display)) := by
  induction operands generalizing s with
  | nil => simp [fold]
  | cons operand rest ih =>
    show Operator.add.fold w (w.add (.str s) operand) rest = _
    rw [add_str_left, ih, List.map_cons, String.join_cons, String.append_assoc]

theorem fold_reverseAdd (s : String) (operands : List Value) :
    Operator.reverseAdd.fold w (.str s) operands =
      .str (String.join (operands.reverse.map w.display) ++ s) := by
  induction operands generalizing s with
  | nil => simp [fold]
  | cons operand rest ih =>
    show Operator.reverseAdd.fold w (w.add operand (.str s)) rest = _
    rw [add_str_right, ih]
    simp [String.append_assoc]

theorem unclaimed_str {op : Operator} (adds : op = .add ∨ op = .reverseAdd) (s : String)
    (operands : List Value) : op.Unclaimed w (.str s) operands := by
  induction operands generalizing s with
  | nil => trivial
  | cons operand rest ih =>
    have next : ∃ t, op.apply w (.str s) operand = .str t := by
      rcases adds with rfl | rfl
      · exact ⟨_, add_str_left w s operand⟩
      · exact ⟨_, add_str_right w operand s⟩
    obtain ⟨t, joined⟩ := next
    refine ⟨w.ownMethod?_plain rfl op.symbol, ?_⟩
    rw [joined]
    exact ih t

end Operator

/-- An operator on any value, with any operands. Operands may be given in two parts: the result,
the effects and the first failure are those of the first part and then, from its result, of the
second. Step by step, the running value's own method of the symbol takes the operand, else the
owner's override, else the built-in meaning. Where there is neither method nor override, `||` gives
the first truthy value, or the last one, `&&` the first that is not, or the last one; added to a
text, operands follow it as they are displayed, and added in reverse they precede it, the last one
first. -/
theorem operators_fold_left {e : Engine} (orderly : e.Orderly) (op : Operator)
    (owner : Option Constructor) (w : World) (current : Value) (xs ys : List Value) :
    let apply (v : Value) (operands : List Value) := (Computation.fold op).run e v operands owner
    (∀ assign operands,
      applyOperator e current op assign operands owner =
        (do return .of (← apply current operands) assign) ∧
      (current.isNullish = false → operands ≠ [] →
        evaluate e current (.str (op.symbol ++ mark assign)) operands owner =
          applyOperator e current op assign operands owner)) ∧
    (apply current (xs ++ ys)).run w = (do apply (← apply current xs) ys).run w ∧
    (∀ ending, (apply current xs).run w = ending ↔ op.Folds e owner w current xs ending) ∧
    (w.override? owner op = none →
      (op.Unclaimed w current xs →
        (op = .or → (apply current xs).run w =
          .ok (((current :: xs).find? Value.isTruthy).getD
            ((current :: xs).getLast (List.cons_ne_nil current xs))) w) ∧
        (op = .and → (apply current xs).run w =
          .ok (((current :: xs).find? fun v => !v.isTruthy).getD
            ((current :: xs).getLast (List.cons_ne_nil current xs))) w)) ∧
      ∀ s, current = .str s →
        (op = .add → (apply current xs).run w =
          .ok (.str (s ++ String.join (xs.map w.display))) w) ∧
        (op = .reverseAdd → (apply current xs).run w =
          .ok (.str (String.join (xs.reverse.map w.display) ++ s)) w)) := by
  intro apply
  have run (w : World) (v : Value) (operands : List Value) : (apply v operands).run w =
      (applySteps e op (w.override? owner op) v operands).run w := rfl
  have reads (assign : Bool) : Instruction.parse (op.symbol ++ mark assign) = .operator op assign :=
    Instruction.parse_eq_iff.mpr rfl
  refine ⟨fun assign operands => ⟨rfl, fun present given => ?_⟩, ?_, fun ending => ?_,
    fun none => ⟨fun unclaimed => ?_, ?_⟩⟩
  · exact evaluate_operator e present (reads assign) given owner
  · rw [run, applySteps_append, EStateM.run_bind, EStateM.run_bind, run]
    cases ran : (applySteps e op (w.override? owner op) current xs).run w with
    | error stop w' => rfl
    -- the second part looks up the override anew, and finds the same
    | ok v w' =>
      have steps := applySteps_stepwise (orderly w.types) op
        (w.override? owner op) current xs
      dsimp only
      rw [run, override?_kept steps owner ran]
  · rw [run]
    exact ⟨fun ran => ran ▸ applySteps_folds orderly current xs, fun folds => folds.eq orderly⟩
  · have folded := applySteps_unclaimed e unclaimed
    rw [run, none, folded]
    constructor
    · rintro rfl
      rw [Operator.fold_of_settles w fun _ _ => rfl]
    · rintro rfl
      rw [Operator.fold_of_settles w (Operator.and_apply w)]
  · rintro s rfl
    rw [run, none]
    constructor
    · rintro rfl
      rw [applySteps_unclaimed e (Operator.unclaimed_str w (.inl rfl) s xs), Operator.fold_add]
    · rintro rfl
      rw [applySteps_unclaimed e (Operator.unclaimed_str w (.inr rfl) s xs),
        Operator.fold_reverseAdd]

/-- Built-in operators on values that are no entities. -/
theorem built_in_on_scalars :
    let w := World.initial
    let apply (op : Operator) (v : Value) (operands : List Value) :=
      ((Computation.fold op).run (engine 1) v operands none).run w
    apply .or .undefined [.str "", .bool true, .str "b"] = .ok (.bool true) w ∧
      apply .and (.str "a") [.bool true, .null, .str "b"] = .ok .null w ∧
      apply .add (.str "a") [.bool true, .null] = .ok (.str "atruenull") w ∧
      apply .reverseAdd (.str "C") [.str "#", .null] = .ok (.str "null#C") w := by
  intro w apply
  have law (op : Operator) (v : Value) (operands : List Value) :=
    (operators_fold_left (engine_orderly 1) op none w v operands []).2.2.2 rfl
  have scalars : Operator.or.Unclaimed w .undefined [.str "", .bool true, .str "b"] :=
    ⟨rfl, rfl, rfl, trivial⟩
  have scalars' : Operator.and.Unclaimed w (.str "a") [.bool true, .null, .str "b"] :=
    ⟨rfl, rfl, rfl, trivial⟩
  refine ⟨((law .or _ _).1 scalars).1 rfl, ((law .and _ _).1 scalars').2 rfl, ?_, ?_⟩
  · have joined : "a" ++ String.join ["true", "null"] = "atruenull" := by decide
    rw [← joined]
    exact ((law .add _ _).2 "a" rfl).1 rfl
  · have joined : String.join ["null", "#"] ++ "C" = "null#C" := by decide
    rw [← joined]
    exact ((law .reverseAdd _ _).2 "C" rfl).2 rfl

end Accessors
