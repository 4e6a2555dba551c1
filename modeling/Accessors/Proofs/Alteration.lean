import Accessors.Proofs.Confinement
import Accessors.Proofs.Copies
import Accessors.Proofs.Stepwise

/-! What actions leave as it was. Most of the functions that values come with only make new
objects, whatever they are given. Three methods of sequences, the parts of dates and
assignment by key change an object that was there before, their receiver, and no other; they
fail before they change it. -/

namespace Accessors

def Region.changing (S : Ref → Prop) (n : Nat) : Region :=
  ⟨fun r => S r ∨ n ≤ r, fun _ => False, fun _ _ => False⟩

namespace World

def Alters (S : Ref → Prop) (w w' : World) : Prop :=
  (Region.changing S w.objects.size).Evolves w w'

variable {S S' : Ref → Prop} {w w' : World}

theorem Grows.alters (grows : w.Grows w') : w.Alters S w' :=
  grows.mono (fun _ new => .inr new) fun _ _ never => never

theorem Alters.mono (h : w.Alters S w') (weaker : ∀ r, S r → S' r) : w.Alters S' w' :=
  Region.Evolves.mono h (fun r may => may.imp (weaker r) id) fun _ _ never => never

theorem Grows.then_alters {w₁ : World} (first : w.Grows w₁) (second : w₁.Alters S w') :
    w.Alters S w' := by
  have wider (r : Ref) (may : S r ∨ w₁.objects.size ≤ r) : S r ∨ w.objects.size ≤ r :=
    may.imp id fun new => Nat.le_trans first.size new
  exact Region.Evolves.trans first.alters (Region.Evolves.mono second wider fun _ _ never => never)

theorem Alters.then_grows {w₁ : World} (first : w.Alters S w₁) (second : w₁.Grows w') :
    w.Alters S w' := by
  have wider (r : Ref) (new : w₁.objects.size ≤ r) : S r ∨ w.objects.size ≤ r :=
    .inr (Nat.le_trans first.size new)
  exact Region.Evolves.trans first (Region.Evolves.mono second wider fun _ _ never => never)

theorem Alters.trans {w₁ : World} (first : w.Alters S w₁) (second : w₁.Alters S w') :
    w.Alters S w' := by
  have wider (r : Ref) (may : S r ∨ w₁.objects.size ≤ r) : S r ∨ w.objects.size ≤ r :=
    may.imp id fun new => Nat.le_trans first.size new
  exact Region.Evolves.trans first (Region.Evolves.mono second wider fun _ _ never => never)

theorem Alters.grows (h : w.Alters S w') (none : ∀ r, ¬ S r) : w.Grows w' :=
  Region.Evolves.mono h (fun r may => may.elim (fun this => absurd this (none r)) id)
    fun _ _ never => never

theorem Alters.update {r : Ref} {f : Object → Object} (here : S r)
    (same : ∀ o, (f o).inst? = o.inst?) : w.Alters S (w.update r f) :=
  Region.Evolves.update (.inl here) same

theorem Alters.changeItems {r : Ref} (here : S r) (f : Array Value → Array Value) :
    w.Alters S (w.after (changeItems r f)) :=
  .update here fun o => by cases o <;> rfl

theorem Alters.changeFields {r : Ref} (here : S r) (f : Table Value → Table Value) :
    w.Alters S (w.after (changeFields r f)) :=
  .update here fun o => by cases o <;> rfl

theorem Alters.setMoment {r : Ref} (here : S r) (moment : Calendar.Moment) :
    w.Alters S (w.after (setMoment r moment)) :=
  .update here fun o => by cases o <;> rfl

end World

def Growing {α : Type} (a : Action α) : Prop :=
  ∀ w : World, w.Grows (w.after a)

namespace Growing
variable {α β : Type}

theorem pure (v : α) : Growing (Pure.pure v) := fun w => .refl w

theorem fail (error : Error) : Growing (fail error : Action α) := fun w => .refl w

theorem attempt (x : Except Stop α) : Growing (attempt x) := by
  cases x with
  | ok v => exact pure v
  | error stop => exact fun w => .refl w

theorem bind {a : Action α} {k : α → Action β} (ha : Growing a) (hk : ∀ v, Growing (k v)) :
    Growing (a >>= k) :=
  fun w => World.after_bind_of (I := w.Grows) (ha w) fun v w' _ grown => grown.trans (hk v w')

theorem get {k : World → Action β} (hk : ∀ w, Growing (k w)) : Growing (get >>= k) :=
  fun w => hk w w

theorem mapM {f : α → Action β} (xs : List α) (h : ∀ x, Growing (f x)) :
    Growing (xs.mapM f) := by
  induction xs with
  | nil =>
    rw [List.mapM_nil]
    exact pure []
  | cons x xs ih =>
    rw [List.mapM_cons]
    exact bind (h x) fun v => bind ih fun vs => pure _

theorem alloc {o : Object} (plain : o.inst? = none) : Growing (alloc o) :=
  fun w => .push w plain

theorem newSeq (items : List Value) : Growing (newSeq items) :=
  bind (alloc rfl) fun r => pure (Value.seq r)

theorem newRecord (fields : Table Value) : Growing (newRecord fields) :=
  bind (alloc rfl) fun r => pure (Value.record r)

theorem newDate (moment : Calendar.Moment) : Growing (newDate moment) :=
  bind (alloc rfl) fun r => pure (Value.date r)

theorem report (kind : ReportKind) (text : String) : Growing (report kind text) := by
  intro w
  rw [World.after_report]
  exact Region.Evolves.announce _

theorem of_error {a : Action α} (grows : Growing a) {w w' : World} {stop : Stop}
    (ran : a.run w = .error stop w') : w.Grows w' := by
  rw [← World.after_eq_of_error ran]
  exact grows w

theorem look (f : World → α) : Growing (do let w ← MonadState.get; Pure.pure (f w)) :=
  get fun _ => pure _

end Growing

/-- An action that ends well may have changed some objects, one that fails has changed none. -/
def World.Spares {α : Type} (S : Ref → Prop) (w : World) : Ending α → Prop
  | .ok _ w' => w.Alters S w'
  | .error _ w' => w.Grows w'

theorem TextMethod.growing {name : String} {f : Builtin} (found : find? name = some f)
    (this : Value) (args : List Value) : Growing (f this args) := by
  unfold find? at found
  split at found
  all_goals cases found
  case h_1 | h_2 | h_3 => exact .pure _
  case h_4 | h_6 | h_7 | h_8 | h_9 | h_12 => exact .look _
  case h_5 =>
    refine .get fun w => ?_
    split <;> exact .pure _
  case h_10 =>
    refine .get fun w => ?_
    dsimp only
    split
    · exact .pure _
    · exact .fail _
  case h_11 => exact .get fun w => .newSeq _

namespace SequenceMethod

def changing : List String := ["push", "pop", "reverse"]

theorem growing_or_changing {name : String} {f : Builtin} (found : find? name = some f)
    (r : Ref) (args : List Value) :
    Growing (f (.seq r) args) ∨
      name ∈ changing ∧ ∀ w : World, w.Spares (r = ·) ((f (.seq r) args).run w) := by
  unfold find? at found
  split at found
  all_goals cases found
  case h_1 => exact .inr ⟨by simp [changing], fun w => .changeItems rfl _⟩
  case h_2 => exact .inr ⟨by simp [changing], fun w => .changeItems rfl _⟩
  case h_3 => exact .inl (.get fun w => .newSeq _)
  case h_4 =>
    refine .inl (.get fun w => ?_)
    split <;> exact .pure _
  case h_5 => exact .inl (.look _)
  case h_6 => exact .inl (.look _)
  case h_7 => exact .inr ⟨by simp [changing], fun w => .changeItems rfl _⟩
  case h_8 => exact .inl (.get fun w => .newSeq _)

end SequenceMethod

theorem builtin_growing_or_changing {c : Value} {name : String} {f : Builtin}
    (found : builtin? c name = some f) (args : List Value) :
    Growing (f c args) ∨ ∃ r, c = .seq r ∧ name ∈ SequenceMethod.changing ∧
      ∀ w : World, w.Spares (r = ·) ((f c args).run w) := by
  unfold builtin? at found
  split at found
  case h_1 =>
    cases found
    exact .inl (.look _)
  case h_2 =>
    cases found
    exact .inl (.pure _)
  case h_3 => exact .inl (TextMethod.growing found _ args)
  case h_4 =>
    cases found
    refine .inl (.get fun w => ?_)
    dsimp only
    split <;> split
    all_goals first | exact .pure _ | exact .fail _
  case h_5 r _ _ =>
    exact (SequenceMethod.growing_or_changing found r args).imp id fun h => ⟨r, rfl, h⟩
  case h_6 =>
    cases found
    exact .inl (.look _)
  case h_7 => cases found

theorem shallowCopy_growing (v : Value) : Growing (shallowCopy v) := by
  refine .get fun w => ?_
  cases v with
  | seq r => exact .newSeq _
  | record r => exact .newRecord _
  | date r => exact .newDate _
  | _ => exact .pure _

theorem deepCopyWithin_growing (levels : Nat) (v : Value) : Growing (deepCopyWithin levels v) := by
  induction levels generalizing v with
  | zero =>
    unfold deepCopyWithin
    refine .get fun w => ?_
    cases v with
    | date r => exact .newDate _
    | _ => exact .pure _
  | succ levels ih =>
    unfold deepCopyWithin
    refine .get fun w => ?_
    cases v with
    | seq r => exact .bind (.mapM _ ih) fun items => .newSeq items
    | record r =>
      exact .bind (.mapM _ fun entry => .bind (ih entry.2) fun copy => .pure _) fun entries =>
        .newRecord _
    | date r => exact .newDate _
    | _ => exact .pure _

theorem deepCopy_growing (v : Value) : Growing (deepCopy v) :=
  .get fun w => deepCopyWithin_growing w.levels v

theorem ClonePolicy.apply_growing (policy : ClonePolicy) (v : Value) :
    Growing (policy.apply v) := by
  cases policy with
  | identity => exact .pure v
  | shallow => exact shallowCopy_growing v
  | deep => exact deepCopy_growing v

theorem Utility.growing {name : String} {f : Utility} (found : find? name = some f)
    (args : List Value) : Growing (f args) := by
  unfold find? at found
  split at found
  all_goals cases found
  case h_2 | h_3 | h_4 | h_13 => exact .get fun w => .newSeq _
  case h_7 | h_8 =>
    refine .get fun w => ?_
    cases argument args 0 <;> exact .pure _
  case h_15 => exact shallowCopy_growing _
  case h_16 => exact deepCopy_growing _
  all_goals exact .look _

theorem NativeType.construct_growing (t : NativeType) (args : List Value) :
    Growing (t.construct args) := by
  refine .get fun w => ?_
  cases t with
  | object | plainObject =>
    dsimp only
    split <;> exact .newRecord _
  | array => exact .newSeq _
  | date => exact .bind (.attempt _) fun moment => .newDate moment
  | _ => exact .pure _

theorem coerce_growing (e : Engine) (t : NativeType) (v : Value) (args : List Value) :
    Growing (coerce e (.native t) v args) := by
  refine .get fun w => ?_
  split
  · exact .pure v
  · exact t.construct_growing args

namespace DateField

theorem read_cases (field : DateField) (this : Value) (w : World) :
    (∃ n, (field.read this).run w = .ok (.number n) w) ∨
      ∃ stop, (field.read this).run w = .error stop w := by
  cases this with
  | date r => cases field <;> exact .inl ⟨_, rfl⟩
  | _ => exact .inr ⟨_, rfl⟩

theorem read_growing (field : DateField) (this : Value) : Growing (field.read this) := by
  intro w
  unfold World.after
  rcases field.read_cases this w with ⟨n, read⟩ | ⟨stop, read⟩ <;> rw [read] <;> exact .refl w

theorem write_spares (field : DateField) (this value : Value) (w : World) :
    w.Spares (fun r => this = .date r) ((field.write this value).run w) := by
  have rebuilt {x : Except Stop Calendar.Moment} (r : Ref) :
      w.Spares (fun s => Value.date r = .date s)
        ((attempt x >>= fun moment => setMoment r moment).run w) := by
    cases x with
    | ok moment => exact World.Alters.setMoment (S := fun s => Value.date r = .date s) rfl moment
    | error stop => exact .refl w
  unfold write
  rw [EStateM.run_bind]
  cases this with
  | date r =>
    have handle : (ofExcept (dateHandle (.date r))).run w = .ok r w := rfl
    rw [handle]
    dsimp only
    rw [EStateM.run_bind, EStateM.run_get]
    cases field with
    | part p => exact rebuilt r
    | weekday => exact (World.Grows.refl w).alters
    | time => exact rebuilt r
  | _ => exact .refl w

end DateField

theorem setKey_spares {c : Value} (plain : c.isEntity = false) (key value : Value) (w : World) :
    w.Spares (fun r => c.handle? = some r) ((setKey c key value).run w) := by
  cases c with
  | seq r =>
    unfold setKey
    rw [EStateM.run_bind, EStateM.run_get]
    dsimp only
    have here : (Value.seq r).handle? = some r := rfl
    split
    · exact .refl w
    · split
      · exact World.Alters.changeItems (S := fun s => (Value.seq r).handle? = some s) here _
      · split
        · exact World.Alters.changeItems (S := fun s => (Value.seq r).handle? = some s) here _
        · exact .refl w
  | record r =>
    exact World.Alters.changeFields (S := fun s => (Value.record r).handle? = some s) rfl _
  | entity r => cases plain
  | _ => exact .refl w

end Accessors
