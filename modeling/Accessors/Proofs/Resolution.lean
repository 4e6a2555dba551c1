import Accessors.Engine.Depth

/-! What the name in a method instruction stands for. A name is looked for in six places, one
after the other, and the first that has it decides. Built-in methods come after all properties,
those of the owner's table among them, and the table of dates counts only where there is no
owner: an owner can therefore hide what the current value itself has under a name. -/

namespace Accessors

inductive Callee where
  | script (body : Script)
  | property (p : Property)
  | builtin (f : Builtin)
  | utility (f : Utility)

def Callee.call (e : Engine) (current : Value) (name : String) (args : List Value) :
    Option Callee → Action Value
  | some (script body) => e.run body current args
  | some (property p) => p.invoke e current args
  | some (builtin f) => f current args
  | some (utility f) => f (current :: args)
  | none => fail (.invalidMethod name)

def Value.kindProperty? (v : Value) (name : String) : Option Property :=
  match v with
  | .date _ => dateBehavior.property? name
  | _ => none

namespace World

/-- The methods and then the properties that the current value's own type declares. -/
def declared? (w : World) (current : Value) (name : String) : Option Callee :=
  ((w.ownMethod? current name).map .script).or
    (match current with
      | .entity r => ((w.typeOf r).property? name).map .property
      | _ => none)

def ownerProperty? (w : World) (owner : Constructor) (name : String) : Option Property :=
  (owner.behavior? w).bind (·.property? name)

def ownerMethod? (w : World) (owner : Constructor) (name : String) : Option Script :=
  (owner.behavior? w).bind (·.method? name)

/-- What a value has by itself under a name, in the order in which it counts. -/
def ownMember? (w : World) (current : Value) (name : String) : Option Callee :=
  ((w.declared? current name).or ((current.kindProperty? name).map .property)).or
    ((builtin? current name).map .builtin)

def callee? (w : World) (current : Value) (owner : Option Constructor) (name : String) :
    Option Callee :=
  ((w.ownMethod? current name).map .script).or <|
  ((w.findProperty? current owner name).map .property).or <|
  ((builtin? current name).map .builtin).or <|
  ((owner.bind (w.ownerMethod? · name)).map .script).or <|
  (Utility.find? name).map .utility

variable {w : World} {current : Value} {name : String}

theorem callee?_none :
    w.callee? current none name =
      (w.ownMember? current name).or ((Utility.find? name).map .utility) := by
  unfold callee? ownMember? declared? findProperty? Value.kindProperty?
  cases w.ownMethod? current name with
  | some body => rfl
  | none =>
    cases current with
    | date r => cases dateBehavior.property? name <;> simp
    | _ => simp [Option.or_assoc]

theorem callee?_some (owner : Constructor) :
    w.callee? current (some owner) name =
      ((w.declared? current name).or ((w.ownerProperty? owner name).map .property)).or
        (((builtin? current name).map .builtin).or
          (((w.ownerMethod? owner name).map .script).or ((Utility.find? name).map .utility))) := by
  unfold callee? declared? findProperty? ownerProperty?
  cases w.ownMethod? current name with
  | some body => rfl
  | none =>
    cases current <;> simp [Option.or_assoc, Option.map_or]

/-- Without members of its own under a name, a value takes the owner's property, then the owner's
method, then a utility. -/
theorem callee?_some_of_absent (absent : w.ownMember? current name = none) (owner : Constructor) :
    w.callee? current (some owner) name =
      ((w.ownerProperty? owner name).map .property).or
        (((w.ownerMethod? owner name).map .script).or ((Utility.find? name).map .utility)) := by
  obtain ⟨⟨undeclared, _⟩, unbuilt⟩ :
      (w.declared? current name = none ∧ current.kindProperty? name = none) ∧
        builtin? current name = none := by
    simpa [ownMember?] using absent
  rw [callee?_some, undeclared, unbuilt]
  rfl

/-- What the value's type declares counts before anything of the owner. What comes with its kind
does so only when the owner's table has no property of the name, or the very same one. -/
theorem callee?_some_eq_none (own : (w.ownMember? current name).isSome) (owner : Constructor) :
    w.callee? current (some owner) name = w.callee? current none name ↔
      (w.declared? current name).isSome ∨
        w.ownerProperty? owner name = current.kindProperty? name := by
  rw [callee?_some, callee?_none]
  unfold ownMember? at own ⊢
  cases declared : w.declared? current name with
  | some f => simp
  | none =>
    rw [declared] at own
    cases special : current.kindProperty? name with
    | some p =>
      -- a property of the kind: nothing but that property of the owner is the same
      cases w.ownerProperty? owner name <;> cases builtin? current name <;>
        cases w.ownerMethod? owner name <;> cases Utility.find? name <;> simp
    | none =>
      obtain ⟨f, built⟩ : ∃ f, builtin? current name = some f := by
        simpa [special, Option.isSome_iff_exists] using own
      rw [built]
      cases w.ownerProperty? owner name <;> simp

end World

section
variable {w : World} {current : Value} {text name : String} {assign : Bool}

theorem evaluate_method (e : Engine) (present : current.isNullish = false)
    (reads : Instruction.parse text = .method name assign) (args : List Value)
    (owner : Option Constructor) :
    evaluate e current (.str text) args owner =
      applyMethod e current name assign args owner fun p => p.invoke e current args := by
  cases args with
  | nil =>
    unfold evaluate evaluateWith
    simp only [present, reads]
    rfl
  | cons first rest =>
    unfold evaluate evaluateWith
    simp only [present, reads]
    rfl

theorem evaluate_method_run (e : Engine) (present : current.isNullish = false)
    (reads : Instruction.parse text = .method name assign) (named : name ≠ "new")
    (args : List Value) (owner : Option Constructor) :
    (evaluate e current (.str text) args owner).run w =
      (Callee.call e current name args (w.callee? current owner name) >>=
        fun result => pure (Outcome.of result assign)).run w := by
  rw [evaluate_method e present reads]
  have methods : (owner.bind (·.behavior? w)).bind (·.method? name) =
      owner.bind (w.ownerMethod? · name) := by
    cases owner <;> rfl
  unfold applyMethod World.callee?
  rw [EStateM.run_bind, EStateM.run_get]
  simp only [named, if_false, methods]
  -- the six places, one after the other
  cases w.ownMethod? current name with
  | some body => rfl
  | none =>
  cases w.findProperty? current owner name with
  | some p => rfl
  | none =>
  cases builtin? current name with
  | some f => rfl
  | none =>
  cases owner.bind (w.ownerMethod? · name) with
  | some body => rfl
  | none => cases Utility.find? name <;> rfl

end

/-- A method instruction calls what its name stands for. When the value has the name by itself,
that is the same with an owner as without one, and so is the outcome, exactly when the value's
own type declares the name or the owner's table has no other property of it than comes with the
value's kind; else the owner hides it. Names that the value does not have are looked for among
the owner's properties, its methods and the utilities. -/
theorem owner_hides_kind_members_only (e : Engine) (w : World) {current : Value}
    (present : current.isNullish = false) {text name : String} {assign : Bool}
    (reads : Instruction.parse text = .method name assign) (named : name ≠ "new")
    (args : List Value) (owner : Constructor) :
    let run (o : Option Constructor) := (evaluate e current (.str text) args o).run w
    let spared := (w.declared? current name).isSome ∨
      w.ownerProperty? owner name = current.kindProperty? name
    (∀ o, run o = (Callee.call e current name args (w.callee? current o name) >>=
      fun result => pure (Outcome.of result assign)).run w) ∧
    ((w.ownMember? current name).isSome →
      (w.callee? current (some owner) name = w.callee? current none name ↔ spared) ∧
      (spared → run (some owner) = run none)) ∧
    (w.ownMember? current name = none → w.callee? current (some owner) name =
      ((w.ownerProperty? owner name).map .property).or
        (((w.ownerMethod? owner name).map .script).or ((Utility.find? name).map .utility))) := by
  intro run spared
  have runs (o : Option Constructor) := evaluate_method_run (w := w) e present reads named args o
  refine ⟨runs, fun own => ⟨World.callee?_some_eq_none own owner, fun h => ?_⟩,
    fun absent => World.callee?_some_of_absent absent owner⟩
  have same := (World.callee?_some_eq_none own owner).mpr h
  calc run (some owner)
    _ = _ := runs (some owner)
    _ = _ := by rw [same]
    _ = run none := (runs none).symm

/-- A type whose constant property has the name of a built-in method of texts. -/
def trimmingType : World :=
  { World.initial with
    types := #[{ EntityType.bare "E" with
      properties := Table.ofList [("trim", ⟨9, .constant (.str "shadow")⟩)] }] }

/-- With that type as owner, a text has its display form as without one; and a name that the text
does not have is a utility. -/
theorem text_displayed_under_owner :
    let w := trimmingType
    let run (o : Option Constructor) :=
      (evaluate (engine 1) (.str " a ") (.str "#toString=") [] o).run w
    run (some (.entity 0)) = run none ∧ run none = .ok (.write (.str " a ")) w ∧
      w.callee? (.str " a ") (some (.entity 0)) "values" =
        (Utility.find? "values").map .utility := by
  intro w run
  have present : (Value.str " a ").isNullish = false := rfl
  have displays : Instruction.parse "#toString=" = .method "toString" true := by decide
  have lists : Instruction.parse "#values" = .method "values" false := by decide
  have displayed := owner_hides_kind_members_only (engine 1) w present displays (by decide) []
    (.entity 0)
  have listed := owner_hides_kind_members_only (engine 1) w present lists (by decide) []
    (.entity 0)
  exact ⟨(displayed.2.1 rfl).2 (.inr rfl), rfl, listed.2.2 rfl⟩

/-- With that type as owner, a text is not trimmed any more. -/
theorem trim_hidden_by_owner :
    let w := trimmingType
    let run (o : Option Constructor) :=
      (evaluate (engine 1) (.str " a ") (.str "#trim") [] o).run w
    (w.ownMember? (.str " a ") "trim").isSome ∧ run none = .ok (.read (.str "a")) w ∧
      run (some (.entity 0)) = .ok (.read (.str "shadow")) w ∧
      run (some (.entity 0)) ≠ run none := by
  intro w run
  have without : run none = .ok (.read (.str "a")) w := rfl
  have under : run (some (.entity 0)) = .ok (.read (.str "shadow")) w := rfl
  refine ⟨rfl, without, under, fun same => ?_⟩
  rw [without, under] at same
  injection same with outcome
  injection outcome with value
  injection value with shown
  exact absurd shown (by decide)

end Accessors
