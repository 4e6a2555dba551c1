import Accessors.Engine.Depth

/-! What does not listen. Reading the world never looks at the report channel or at its
history, and an action is deaf when it neither looks at them nor changes them: under any
other channel it does the same. Everything but announcing is built from deaf actions. -/

namespace Accessors

abbrev History := Ghost (List (Report × Scene))

def World.hearing (w : World) (c : Channel) (h : History) : World :=
  { w with channel := c, history := h }

namespace World
variable (w : World) (c : Channel) (h : History)

@[simp] theorem hearing_toScene : (w.hearing c h).toScene = w.toScene := rfl

@[simp] theorem hearing_channel : (w.hearing c h).channel = c := rfl

theorem hearing_self : w.hearing w.channel w.history = w := rfl

@[simp] theorem sequence_hearing (r : Ref) : (w.hearing c h).sequence r = w.sequence r := rfl

@[simp] theorem items_hearing (r : Ref) : (w.hearing c h).items r = w.items r := rfl

@[simp] theorem fields_hearing (r : Ref) : (w.hearing c h).fields r = w.fields r := rfl

@[simp] theorem moment_hearing (r : Ref) : (w.hearing c h).moment r = w.moment r := rfl

@[simp] theorem field_hearing (r : Ref) (name : String) :
    (w.hearing c h).field r name = w.field r name := rfl

@[simp] theorem typeOf_hearing (r : Ref) : (w.hearing c h).typeOf r = w.typeOf r := rfl

@[simp] theorem hasMember_hearing (r : Ref) (name : String) :
    (w.hearing c h).hasMember r name = w.hasMember r name := rfl

@[simp] theorem displayWithin_hearing (levels : Nat) (v : Value) :
    (w.hearing c h).displayWithin levels v = w.displayWithin levels v := by
  induction levels generalizing v with
  | zero =>
    unfold displayWithin
    simp only [moment_hearing, typeOf_hearing]
  | succ levels ih =>
    unfold displayWithin
    simp only [moment_hearing, typeOf_hearing, items_hearing, ih]

@[simp] theorem display_hearing (v : Value) : (w.hearing c h).display v = w.display v :=
  displayWithin_hearing w c h _ v

@[simp] theorem toNumberWithin_hearing (levels : Nat) (v : Value) :
    (w.hearing c h).toNumberWithin levels v = w.toNumberWithin levels v := by
  induction levels generalizing v with
  | zero =>
    unfold toNumberWithin
    simp only [moment_hearing]
  | succ levels ih =>
    unfold toNumberWithin
    simp only [moment_hearing, sequence_hearing, ih]

@[simp] theorem toNumber_hearing (v : Value) : (w.hearing c h).toNumber v = w.toNumber v :=
  toNumberWithin_hearing w c h _ v

@[simp] theorem equalWithin_hearing (levels : Nat) (a b : Value) :
    (w.hearing c h).equalWithin levels a b = w.equalWithin levels a b := by
  induction levels generalizing a b with
  | zero => cases a <;> cases b <;> rfl
  | succ levels ih =>
    have same : (w.hearing c h).equalWithin levels = w.equalWithin levels :=
      funext fun a => funext fun b => ih a b
    cases a <;> cases b <;> try rfl
    case seq.seq r s => simp [equalWithin, same]
    case record.record r s => simp [equalWithin, same]

@[simp] theorem equal_hearing (a b : Value) : (w.hearing c h).equal a b = w.equal a b :=
  equalWithin_hearing w c h _ a b

@[simp] theorem add_hearing (a b : Value) : (w.hearing c h).add a b = w.add a b := by
  simp [add]

@[simp] theorem apply_hearing (op : Operator) (a b : Value) :
    op.apply (w.hearing c h) a b = op.apply w a b := by
  cases op <;> simp [Operator.apply]

@[simp] theorem hasKey_hearing (v key : Value) :
    (w.hearing c h).hasKey v key = w.hasKey v key := by
  cases v <;> try rfl
  all_goals simp [hasKey]

@[simp] theorem getKey_hearing (v key : Value) :
    (w.hearing c h).getKey v key = w.getKey v key := by
  cases v <;> simp [getKey]

@[simp] theorem relative_hearing (position : Value) (length default : Nat) :
    (w.hearing c h).relative position length default = w.relative position length default := by
  simp [relative]

@[simp] theorem slice_hearing {α : Type} (xs : List α) (args : List Value) :
    (w.hearing c h).slice xs args = w.slice xs args := by
  simp [slice]

@[simp] theorem collection_hearing (v : Value) :
    (w.hearing c h).collection v = w.collection v := by
  cases v <;> rfl

@[simp] theorem extreme_hearing (better : Float → Float → Bool) (items : List Value) :
    (w.hearing c h).extreme better items = w.extreme better items := by
  simp [extreme]

@[simp] theorem distinct_hearing (items : List Value) :
    (w.hearing c h).distinct items = w.distinct items := by
  simp [distinct]

@[simp] theorem keysOf_hearing (v : Value) : (w.hearing c h).keysOf v = w.keysOf v := by
  cases v <;> rfl

@[simp] theorem leadingInteger_hearing (v : Value) :
    (w.hearing c h).leadingInteger v = w.leadingInteger v := by
  cases v <;> simp [leadingInteger]

@[simp] theorem momentOf_hearing (args : List Value) :
    (w.hearing c h).momentOf args = w.momentOf args := by
  have same : (w.hearing c h).toNumber = w.toNumber := funext fun v => toNumber_hearing w c h v
  unfold momentOf
  split <;> simp [same]

@[simp] theorem arrayItems_hearing (args : List Value) :
    (w.hearing c h).arrayItems args = w.arrayItems args := by
  unfold arrayItems
  split <;> rfl

@[simp] theorem ownMethod?_hearing (current : Value) (name : String) :
    (w.hearing c h).ownMethod? current name = w.ownMethod? current name := rfl

end World

/-- How an action ends: with a value or a stop, and in some world. -/
abbrev Ending (α : Type) := EStateM.Result Stop World α

def Ending.world {α : Type} : Ending α → World
  | .ok _ w => w
  | .error _ w => w

/-- The world that an action leaves behind, whether it ends well or fails. -/
def World.after {α : Type} (w : World) (a : Action α) : World :=
  Ending.world (a.run w)

def Ending.hearing {α : Type} (c : Channel) (h : History) : Ending α → Ending α
  | .ok v w => .ok v (w.hearing c h)
  | .error stop w => .error stop (w.hearing c h)

def Deaf {α : Type} (a : Action α) : Prop :=
  ∀ w c h, a.run (w.hearing c h) = Ending.hearing c h (a.run w)

namespace Deaf
variable {α β : Type}

theorem throw (stop : Stop) : Deaf (throw stop : Action α) := fun _ _ _ => rfl

theorem modify {f : World → World} (deaf : ∀ w c h, f (w.hearing c h) = (f w).hearing c h) :
    Deaf (modify f : Action Unit) := by
  intro w c h
  rw [EStateM.run_modify, EStateM.run_modify, deaf]
  rfl

theorem alloc (o : Object) : Deaf (alloc o) := fun _ _ _ => rfl

theorem unheard {a : Action α} (deaf : Deaf a) (w : World) :
    w.after a = (w.after a).hearing w.channel w.history := by
  have same := deaf w w.channel w.history
  rw [World.hearing_self] at same
  unfold World.after
  cases ending : a.run w with
  | ok v w' =>
    rw [ending] at same
    injection same
  | error stop w' =>
    rw [ending] at same
    injection same

end Deaf

end Accessors
