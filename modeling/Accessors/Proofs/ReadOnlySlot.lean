import Accessors.Proofs.FailedCall
import Accessors.Proofs.Grounded
import Accessors.Proofs.InstructionGrammar
import Accessors.Proofs.KeyedPath
import Accessors.Proofs.Resolution

/-! What calls of a read-only property can do to what it reads. The slot keeps its value, and the
value its content, unless an argument asks for a change in place: a method that changes its
sequence, a new value for a part of a date, or a value after a path of keys. -/

namespace Accessors

def Outcome.isWrite : Outcome → Bool
  | write _ | request => true
  | read _ | done => false

/-- Instructions that only compute: methods and operators whose result is not to be written. -/
inductive Computes : Value → List Value → Prop
  | method {text name : String} (reads : Instruction.parse text = .method name false)
      (args : List Value) : Computes (.str text) args
  | operator {text : String} {op : Operator} (reads : Instruction.parse text = .operator op false)
      {args : List Value} (given : args ≠ []) : Computes (.str text) args

namespace World

/-- The arguments ask for a change in place of the value, or of something in it. -/
inductive InPlace (w : World) : Value → List Value → Prop
  | method {r : Ref} {text name : String} {assign : Bool}
      (reads : Instruction.parse text = .method name assign)
      (changes : name ∈ SequenceMethod.changing) (args : List Value) :
    InPlace w (.seq r) (.str text :: args)
  | part {r : Ref} {text name : String} {id : Nat} {field : DateField} {key : Value}
      {args : List Value}
      (reads : (∃ assign, Instruction.parse text = .method name assign) ∨
        Instruction.parse text = .key name)
      (listed : dateBehavior.property? name = some (field.property id))
      (settable : field ≠ .weekday) (sets : ¬ Computes key args) :
    InPlace w (.date r) (.str text :: key :: args)
  | entry {c key v : Value} (container : c.isContainer = true) (plain : key.isPlainKey = true)
      (absent : w.hasKey (w.getKey c key) v = false) : InPlace w c [key, v]
  | inside {c key next : Value} {args : List Value} (container : c.isContainer = true)
      (plain : key.isPlainKey = true)
      (goes : args = [] → w.hasKey (w.getKey c key) next = true)
      (inner : InPlace w (w.getKey c key) (next :: args)) : InPlace w c (key :: next :: args)

end World

def following (e : Engine) (args : List Value) (inner : Value) (owner : Option Constructor) :
    Action Outcome :=
  match args with
  | [] => pure .done
  | first :: rest => evaluate e inner first rest owner

theorem evaluate_eq (e : Engine) (c key : Value) (args : List Value) (owner : Option Constructor) :
    evaluate e c key args owner =
      evaluateWith e c key args owner (following e args) fun p => p.invoke e c args := by
  cases args with
  | nil =>
    unfold evaluate
    rfl
  | cons first rest =>
    rw [evaluate]
    rfl

theorem evaluate_nullish (e : Engine) {current : Value} (nullish : current.isNullish = true)
    (key : Value) (args : List Value) (owner : Option Constructor) :
    evaluate e current key args owner = pure .request := by
  rw [evaluate_eq]
  unfold evaluateWith
  rw [if_pos nullish]

section
variable {w : World} {c key : Value} {args : List Value}

theorem evaluate_computes (e : Engine) (present : c.isNullish = false)
    (computes : Computes key args) {outcome : Outcome} {w' : World}
    (ran : (evaluate e c key args none).run w = .ok outcome w') : outcome.isWrite = false := by
  have read (a : Action Value) : ∀ (outcome : Outcome) w',
      (a >>= fun v => pure (Outcome.of v false)).run w = .ok outcome w' →
        outcome.isWrite = false := by
    refine World.run_bind_of (P := fun _ => True)
      (Q := fun e => ∀ (outcome : Outcome) w', e = .ok outcome w' → outcome.isWrite = false)
      trivial ?_ ?_
    · intro stop w₁ _ outcome w' never
      cases never
    · intro v w₁ _ outcome w' ended
      cases ended
      rfl
  cases computes with
  | @method text name reads args =>
    by_cases named : name = "new"
    · rw [evaluate_method e present reads] at ran
      subst named
      cases ran
    · rw [evaluate_method_run e present reads named] at ran
      exact read _ outcome w' ran
  | @operator text op reads args given =>
    rw [evaluate_operator e present reads given] at ran
    exact read _ outcome w' ran

/-- A part of a date that is read, or given to a computation, leaves the date as it is; and so does
the weekday, which refuses everything. -/
theorem DateField.invoke_grows (e : Engine) (i : Nat) (field : DateField) (this : Value)
    (given : ∀ v ∈ args, v.isEntity = false)
    (unset : ∀ key rest, args = key :: rest → field = .weekday ∨ Computes key rest) :
    w.Grows (w.after ((field.property i).invoke e this args)) := by
  cases args with
  | nil =>
    have reads : Growing (field.read this >>= fun v => pure v) := .bind (field.read_growing this) .pure
    cases field <;> exact reads w
  | cons key rest =>
    have others := (List.forall_mem_cons.mp given).2
    have computed {finish : Outcome → Action Value}
        (finished : ∀ outcome w₁, (field = .weekday ∨ outcome.isWrite = false) → w.Grows w₁ →
          w.Grows (w₁.after (finish outcome))) :
        w.Grows (w.after (field.read this >>= fun v => evaluate e v key rest none >>= finish)) := by
      refine World.after_bind_of (field.read_growing this w) fun v w₁ read grown => ?_
      rcases field.read_cases this w with ⟨n, ran⟩ | ⟨stop, ran⟩
      · cases read.symm.trans ran
        have evaluated := (evaluate_effect e (.scalar rfl) key others .none).grows (v := .number n)
          (w := w) rfl
        refine World.after_bind_of evaluated fun outcome w₂ ran grown => finished outcome w₂ ?_ grown
        exact (unset key rest rfl).imp id fun computes => evaluate_computes e rfl computes ran
      · cases read.symm.trans ran
    have custom (settable : field ≠ .weekday) : w.Grows (w.after
        ((PropertyKind.custom (.dateField field) (.dateField field)).invoke e this (key :: rest)
          fun v o => evaluate e v key rest o)) := by
      refine computed fun outcome w₁ kept grown => ?_
      have read := kept.resolve_left settable
      cases outcome with
      | read v | done => exact grown
      | write v | request => cases read
    cases field with
    | part p | time => exact custom nofun
    | weekday =>
      refine computed fun outcome w₁ _ grown => ?_
      have refused : Growing (reportReadOnlyWrite >>= fun _ => pure this) :=
        .bind (.report _ _) fun _ => .pure this
      cases outcome with
      | read v | done => exact grown
      | write v | request => exact grown.trans (refused w₁)

theorem applyMethod_grows (e : Engine) (free : w.EntityFree c) {name : String} (assign : Bool)
    (unchanged : ∀ r, c = .seq r → name ∉ SequenceMethod.changing) {call : Property → Action Value}
    (parts : ∀ r i (field : DateField), c = .date r →
      dateBehavior.property? name = some (field.property i) →
        w.Grows (w.after (call (field.property i)))) :
    w.Grows (w.after (applyMethod e c name assign args none call)) := by
  have plain := free c (.self c)
  have finish {a : Action Value} (grows : w.Grows (w.after a)) :
      w.Grows (w.after (a >>= fun result => pure (Outcome.of result assign))) :=
    World.after_bind_of grows fun v w' _ grown => grown
  unfold applyMethod
  show w.Grows (World.after w (if name = "new" then _ else _))
  split
  · exact .refl w
  · simp only [w.ownMethod?_plain plain name, NativeOwner.none.method? w]
    split
    · rename_i p found
      have listed := NativeOwner.none.findProperty? w plain found
      obtain ⟨i, field, rfl⟩ := dateBehavior_property? listed
      have dated : ∃ r, c = .date r := by
        cases c <;> first | exact ⟨_, rfl⟩ | cases found | cases plain
      obtain ⟨r, date⟩ := dated
      exact finish (parts r i field date listed)
    · split
      · rename_i f found
        rcases builtin_growing_or_changing found args with growing | ⟨r, here, listed, _⟩
        · exact finish (growing w)
        · exact absurd listed (unchanged r here)
      · split
        · rename_i f found
          exact finish (Utility.growing found _ w)
        · exact .refl w

theorem applyOperator_grows (e : Engine) (plain : c.isEntity = false) (op : Operator)
    (assign : Bool) (given : ∀ v ∈ args, v.isEntity = false) :
    w.Grows (w.after (applyOperator e c op assign args none)) := by
  have effect : w.Effect (fun _ => False) False c ((applyOperator e c op assign args none).run w) :=
    applyOperator_effect e plain op assign given .none
  exact effect.alters.grows fun _ never => never

theorem accessKey_grows {next : Value → Option Constructor → Action Outcome}
    (unassigned : ∀ v, args = [v] → w.hasKey (w.getKey c key) v = true)
    (entry : args ≠ [] → w.Grows (w.after (next (w.getKey c key) none))) :
    w.Grows (w.after (accessKey c key args next)) := by
  unfold World.after at entry ⊢
  match args with
  | [] => exact .refl w
  | [last] =>
    rw [accessKey_entry (unassigned last rfl) next]
    exact entry (List.cons_ne_nil _ _)
  | first :: second :: rest =>
    cases nullish : (w.getKey c key).isNullish with
    | true =>
      rw [accessKey_nullish nullish first second rest next]
      exact .refl w
    | false =>
      rw [accessKey_descends nullish first second rest next]
      exact entry (List.cons_ne_nil _ _)

theorem evaluateKey_grows (plain : c.isEntity = false)
    {next : Value → Option Constructor → Action Outcome} {call : Property → Action Value}
    (parts : ∀ r name i (field : DateField), c = .date r → key = .str name →
      dateBehavior.property? name = some (field.property i) →
        w.Grows (w.after (call (field.property i))))
    (access : c.isContainer = true → w.Grows (w.after (accessKey c key args next))) :
    w.Grows (w.after (evaluateKey c key args none next call)) := by
  have keyed : w.Grows (w.after
      (if c.isKeyed then accessKey c key args next else pure .request)) := by
    split
    · rename_i keyed
      refine access ?_
      cases c <;> first | rfl | (cases keyed; done) | cases plain
    · exact .refl w
  cases key with
  | number n => exact keyed
  | str name =>
    unfold evaluateKey
    dsimp only
    refine World.after_bind_of (World.Grows.refl w) fun w₁ w₂ looked grown => ?_
    cases looked
    split
    · rename_i p found
      have listed := NativeOwner.none.findProperty? w plain found
      obtain ⟨i, field, rfl⟩ := dateBehavior_property? listed
      obtain ⟨r, rfl⟩ : ∃ r, c = .date r := by
        cases c <;> first | exact ⟨_, rfl⟩ | cases found | cases plain
      exact World.after_bind_of (parts r name i field rfl rfl listed) fun _ _ _ grown => grown
    · exact keyed
  | _ => exact .refl w

end

theorem Instruction.key_of_parse {text name : String} (reads : parse text = .key name) :
    name = text :=
  (parse_eq_iff.mp reads).1

section
variable {w : World} {c key : Value} {args : List Value}

theorem evaluate_grows_here (e : Engine) (free : w.EntityFree c)
    (given : ∀ v ∈ args, v.isEntity = false) (unasked : ¬ w.InPlace c (key :: args))
    (inner : ∀ first rest, args = first :: rest →
      (rest = [] → w.hasKey (w.getKey c key) first = true) →
      ¬ w.InPlace (w.getKey c key) (first :: rest) →
      w.Grows (w.after (evaluate e (w.getKey c key) first rest none))) :
    w.Grows (w.after (evaluate e c key args none)) := by
  have plain := free c (.self c)
  -- the property of a date sets a part only if that was asked for
  have parts {text name : String} (here : key = .str text)
      (reads : (∃ assign, Instruction.parse text = .method name assign) ∨
        Instruction.parse text = .key name ∨ args = [])
      (r i) (field : DateField) (date : c = .date r)
      (listed : dateBehavior.property? name = some (field.property i)) :
      w.Grows (w.after ((field.property i).invoke e c args)) := by
    refine field.invoke_grows e i c given fun first rest same => ?_
    by_contra neither
    obtain ⟨settable, sets⟩ := not_or.mp neither
    subst here date same
    have reads := reads.imp id (Or.resolve_right · (List.cons_ne_nil _ _))
    exact unasked (.part reads listed settable sets)
  -- a single argument that is no key of the entry would be assigned, which was not asked for either
  have access (plainKey : args ≠ [] → key.isPlainKey = true) (container : c.isContainer = true) :
      w.Grows (w.after (accessKey c key args (following e args))) := by
    have unassigned (v : Value) (same : args = [v]) : w.hasKey (w.getKey c key) v = true := by
      by_contra absent
      subst same
      exact unasked (.entry container (plainKey (List.cons_ne_nil _ _)) (by simpa using absent))
    refine accessKey_grows unassigned fun some => ?_
    obtain ⟨first, rest, same⟩ := List.exists_cons_of_ne_nil some
    have goes (none : rest = []) : w.hasKey (w.getKey c key) first = true :=
      unassigned first (by rw [same, none])
    have inside := inner first rest same goes fun asked => unasked <| by
      subst same
      exact .inside container (plainKey some) goes asked
    subst same
    exact inside
  have keyed (plainKey : args ≠ [] → key.isPlainKey = true) : w.Grows (w.after
      (evaluateKey c key args none (following e args) fun p => p.invoke e c args)) := by
    refine evaluateKey_grows plain (fun r name i field date here listed => ?_) (access plainKey)
    refine parts here ?_ r i field date listed
    subst here
    by_cases none : args = []
    · exact .inr (.inr none)
    · exact .inr (.inl (of_decide_eq_true (plainKey none)))
  rw [evaluate_eq]
  unfold evaluateWith
  split
  · exact .refl w
  · cases key with
    | str text =>
      dsimp only
      split
      · rename_i name assign reads
        refine applyMethod_grows e free assign (fun r here changes => ?_) fun r i field =>
          parts rfl (.inl ⟨assign, reads⟩) r i field
        subst here
        exact unasked (.method reads changes args)
      · split <;> exact .refl w
      · split
        · rename_i none
          exact keyed fun some => absurd (List.isEmpty_iff.mp none) some
        · exact applyOperator_grows e plain _ _ given
      · rename_i name reads
        refine keyed fun _ => ?_
        rw [Instruction.key_of_parse reads] at reads
        exact decide_eq_true reads
    | number n => exact keyed fun _ => rfl
    | _ => exact .refl w

theorem evaluate_grows (e : Engine) (free : w.EntityFree c)
    (given : ∀ v ∈ args, v.isEntity = false) (unasked : ¬ w.InPlace c (key :: args)) :
    w.Grows (w.after (evaluate e c key args none)) := by
  induction args generalizing c key with
  | nil => exact evaluate_grows_here e free given unasked fun _ _ never => nomatch never
  | cons next others ih =>
    refine evaluate_grows_here e free given unasked fun first rest same _ unasked => ?_
    obtain ⟨rfl, rfl⟩ := List.cons.inj same
    exact ih (free.getKey key) (List.forall_mem_cons.mp given).2 unasked

end

theorem Region.Sealed.entityFree {w w' : World} {v : Value}
    (sealed : (Region.among w fun _ => False).Sealed w')
    (within : (Region.among w fun _ => False).within v) : w'.EntityFree v := by
  refine World.entityFree_of_among fun s contains => ?_
  exact sealed.among (fun s never => never.elim) within s contains

theorem World.Alters.reading {S : Ref → Prop} {w w' : World} (alters : w.Alters S w') {r : Ref}
    {key : StorageKey} : w'.reading r key = w.reading r key := by
  unfold World.reading
  rw [alters.slots r key fun never => never]

section
variable {p : Property} {key : StorageKey} (kind : p.kind = .readOnly (.slot key)) (e : Engine)
  (r : Ref) {w : World}
include kind

theorem read_only_reads : (p.invoke e (.entity r) []).run w = .ok (w.reading r key) w := by
  unfold Property.invoke
  simp only [kind]
  rfl

theorem read_only_call (first : Value) (rest : List Value) :
    w.after (p.invoke e (.entity r) (first :: rest)) =
      w.after (evaluate e (w.reading r key) first rest none >>=
        PropertyKind.conclude e (.readOnly (.slot key)) r first rest) := by
  have native : p.kind.Native := kind ▸ .readOnly key
  rw [p.invoke_eq native, kind]
  unfold World.after
  rw [EStateM.run_bind, read_only_reads kind]
  rfl

omit kind in
theorem read_only_conclude (first : Value) (rest : List Value) (outcome : Outcome) :
    Growing (PropertyKind.conclude e (.readOnly (.slot key)) r first rest outcome) := by
  have reported : Growing (reportReadOnlyWrite >>= fun _ => pure (Value.entity r)) :=
    .bind (.report _ _) fun _ => .pure _
  cases outcome with
  | read v => exact .pure v
  | done => exact .pure _
  | write v | request => exact reported

/-- A call changes at most what it is asked to change in place, and that can be reached from the
value in the slot. The value goes on to be without entities. -/
theorem read_only_step {args : List Value} (free : w.EntityFree (w.reading r key))
    (given : ∀ v ∈ args, w.EntityFree v) :
    w.Alters (fun s => w.InPlace (w.reading r key) args ∧ w.Reaches (w.reading r key) s)
        (w.after (p.invoke e (.entity r) args)) ∧
      (w.after (p.invoke e (.entity r) args)).EntityFree (w.reading r key) := by
  cases args with
  | nil =>
    rw [World.after_eq_of_ok (read_only_reads kind e r)]
    exact ⟨(World.Grows.refl w).alters, free⟩
  | cons first rest =>
    have others := (List.forall_mem_cons.mp given).2
    have plain (v : Value) (mem : v ∈ rest) : v.isEntity = false := others v mem v (.self v)
    rw [read_only_call kind]
    constructor
    · have evaluated : w.Alters
          (fun s => w.InPlace (w.reading r key) (first :: rest) ∧ w.Reaches (w.reading r key) s)
          (w.after (evaluate e (w.reading r key) first rest none)) := by
        by_cases asked : w.InPlace (w.reading r key) (first :: rest)
        · exact (evaluate_effect e free first plain .none).alters.mono fun s reaches => ⟨asked, reaches⟩
        · exact (evaluate_grows e free plain asked).alters
      exact World.after_bind_of evaluated fun outcome w₁ _ altered =>
        altered.then_grows (read_only_conclude e r first rest outcome w₁)
    · have within := Region.within_among free.among
      have confined : Confined (Region.among w fun _ => False) (fun _ => True)
          (evaluate e (w.reading r key) first rest none >>=
            PropertyKind.conclude e (.readOnly (.slot key)) r first rest) := by
        refine .bind (evaluate_confined (fun _ never => never) e within first
          (fun v mem => Region.within_among (others v mem).among) .none) fun outcome _ => ?_
        cases outcome with
        | read v | done => exact .pure trivial
        | write v | request => exact .bind (.report _ _) fun _ _ => .pure trivial
      exact (confined w (Region.sealed_among w _)).after.2.entityFree within

end

/-- Calls of a property on an instance, and new collections and dates of the host between them,
with no entity in anything given. Listed is what each call was given, with the world that it
found. -/
inductive Uses (p : Property) (r : Ref) (w : World) : World → List (World × List Value) → Prop
  | none : Uses p r w w []
  | call {w₁ : World} {calls : List (World × List Value)} (before : Uses p r w w₁ calls)
      (e : Engine) (args : List Value) (given : ∀ v ∈ args, w₁.EntityFree v) :
      Uses p r w (w₁.after (p.invoke e (.entity r) args)) ((w₁, args) :: calls)
  | make {w₁ : World} {calls : List (World × List Value)} (before : Uses p r w w₁ calls)
      (o : Object) (plain : o.inst? = .none) (given : ∀ v ∈ o.held, w₁.EntityFree v) :
      Uses p r w (w₁.push o) calls

def asked (calls : List (World × List Value)) (c : Value) (s : Ref) : Prop :=
  ∃ call ∈ calls, call.1.InPlace c call.2 ∧ call.1.Reaches c s

theorem Uses.invariant {p : Property} {key : StorageKey} (kind : p.kind = .readOnly (.slot key))
    {r : Ref} {w w' : World} {calls : List (World × List Value)} (uses : Uses p r w w' calls)
    (free : w.EntityFree (w.reading r key)) :
    w.Alters (asked calls (w.reading r key)) w' ∧ w'.reading r key = w.reading r key ∧
      w'.EntityFree (w.reading r key) := by
  induction uses with
  | none => exact ⟨(World.Grows.refl w).alters, rfl, free⟩
  | call before e args given ih =>
    rename_i w₁ calls
    obtain ⟨altered, same, free₁⟩ := ih
    obtain ⟨step, free₂⟩ := read_only_step kind e r (same ▸ free₁) given
    rw [same] at step free₂
    have before : w.Alters (asked ((w₁, args) :: calls) (w.reading r key)) w₁ :=
      altered.mono fun s ⟨earlier, mem, was⟩ => ⟨earlier, List.mem_cons_of_mem _ mem, was⟩
    have now : w₁.Alters (asked ((w₁, args) :: calls) (w.reading r key))
        (w₁.after (p.invoke e (.entity r) args)) :=
      step.mono fun s reached => ⟨_, List.mem_cons_self, reached⟩
    exact ⟨before.trans now, step.reading.trans same, free₂⟩
  | make before o plain given ih =>
    rename_i w₁ calls
    obtain ⟨altered, same, free₁⟩ := ih
    have grows : w₁.Grows (w₁.push o) := .push w₁ plain
    have held : ∀ v ∈ o.held, (Region.among w₁ fun _ => False).within v :=
      fun v mem => Region.within_among (given v mem).among
    exact ⟨altered.then_grows grows, (altered.then_grows grows).reading,
      ((Region.sealed_among w₁ _).push plain held).entityFree (Region.within_among free₁.among)⟩

/-- A read-only property with a slot, what is in the slot without entities, and calls of the
property that are given none. The property goes on to read the same handle or scalar. An object
that was there before is another one only if one of the calls asked for a change in place, and
found it inside the value; so as long as none does, the value is alike at every depth. -/
theorem read_only_value_kept {p : Property} {key : StorageKey}
    (kind : p.kind = .readOnly (.slot key)) {r : Ref} {w w' : World}
    {calls : List (World × List Value)} (uses : Uses p r w w' calls)
    (free : w.EntityFree (w.reading r key))
    (present : ∀ s, w.Reaches (w.reading r key) s → s < w.objects.size) :
    let c := w.reading r key
    (∀ e, (p.invoke e (.entity r) []).run w = .ok c w ∧
      (p.invoke e (.entity r) []).run w' = .ok c w') ∧
    (∀ s, s < w.objects.size → w.typeId? s = none → w'.objects[s]? ≠ w.objects[s]? →
      ∃ call ∈ calls, call.1.InPlace c call.2 ∧ call.1.Reaches c s) ∧
    ((∀ call ∈ calls, ¬ call.1.InPlace c call.2) →
      ∀ levels, w'.shape levels c = w.shape levels c) := by
  intro c
  obtain ⟨altered, same, _⟩ := uses.invariant kind free
  refine ⟨fun e => ⟨read_only_reads kind e r, ?_⟩, fun s older plain differs => ?_,
    fun unasked levels => ?_⟩
  · rw [read_only_reads kind e r, same]
  · by_contra unasked
    refine differs (altered.others s ?_ plain)
    rintro (asked | new)
    · exact unasked asked
    · exact absurd older (Nat.not_lt.mpr new)
  · have grows : w.Grows w' :=
      altered.grows fun s ⟨call, mem, asked, _⟩ => unasked call mem asked
    have kept : World.SameOn (w.Reaches c) w w' :=
      Region.Evolves.sameOn grows (fun _ reaches _ held _ next => reaches.step held next)
        fun s reaches new => absurd (present s reaches) (Nat.not_lt.mpr new)
    exact kept.shape (fun _ => .start) levels

theorem sequenceOwner_present {items : Array Value} (flat : ∀ v ∈ items, v.handle? = none) {s : Ref}
    (reaches : (sequenceOwner items).Reaches (.seq 1) s) : s < (sequenceOwner items).objects.size := by
  obtain ⟨u, contains, handle⟩ := reaches
  cases contains with
  | self =>
    cases handle
    exact Nat.lt_succ_self 1
  | inside here held rest =>
    cases here
    have bare := flat _ (Array.mem_toList_iff.mp held)
    exact absurd ⟨u, rest, handle⟩ (World.Reaches.not_of_bare bare s)

/-- An item is read, and a text is refused: the sequence of texts stays as it is. -/
theorem sequence_read_then_refused :
    let p : Property := ⟨9, .readOnly (.slot (.named "_x"))⟩
    let w := sequenceOwner #[.str "a", .str "b"]
    let w₁ := w.after (p.invoke (engine 1) (.entity 0) [.str "-1"])
    let w₂ := w₁.after (p.invoke (engine 1) (.entity 0) [.str "##c"])
    (p.invoke (engine 1) (.entity 0) []).run w₂ = .ok (.seq 1) w₂ ∧
      ∀ levels, w₂.shape levels (.seq 1) = w.shape levels (.seq 1) := by
  intro p w w₁ w₂
  have uses : Uses p 0 w w₂ [(w₁, [.str "##c"]), (w, [.str "-1"])] :=
    .call (.call .none (engine 1) _ (by simpa using .scalar rfl)) (engine 1) _
      (by simpa using .scalar rfl)
  have flat : ∀ v ∈ #[Value.str "a", .str "b"], v.handle? = none := by simp [Value.handle?]
  have kind : p.kind = .readOnly (.slot (.named "_x")) := rfl
  have free : w.EntityFree (w.reading 0 (.named "_x")) := sequenceOwner_free flat
  have present (s : Ref) : w.Reaches (w.reading 0 (.named "_x")) s → s < w.objects.size :=
    sequenceOwner_present flat
  have item : Instruction.parse "-1" = .key "-1" := by decide
  have literal : Instruction.parse "##c" = .literal "#c" := by decide
  have kept := read_only_value_kept kind uses free present
  refine ⟨(kept.1 (engine 1)).2, kept.2.2 fun call mem asked => ?_⟩
  rcases List.mem_cons.mp mem with rfl | mem
  · cases asked with
    | method reads => cases literal.symm.trans reads
  · cases List.mem_singleton.mp mem
    cases asked with
    | method reads => cases item.symm.trans reads

/-- An instance with false in a slot, and another one whose type has a method for an operator, which
sets that slot of its operand to true. -/
def meddlingOperand : World :=
  { World.initial with
    types := #[.bare "Owner", { EntityType.bare "Operand" with
      methods := Table.ofList
        [("||", .setField (.argument 0) "_x" (.literal (.bool true)))] }]
    objects := #[.entity ⟨0, Table.ofList [("_x", .bool false)], []⟩, .entity ⟨1, .empty, []⟩] }

/-- A text after a key is assigned in the sequence that a read-only property reads, and a method
takes an item off it; and an entity among the operands may even replace what is in the slot. -/
theorem read_only_content_changed :
    let p : Property := ⟨9, .readOnly (.slot (.named "_x"))⟩
    let w := sequenceOwner #[.str "a", .str "b"]
    let call (args : List Value) := p.invoke (engine 1) (.entity 0) args
    w.EntityFree (.seq 1) ∧ (call []).run w = .ok (.seq 1) w ∧
      w.items 1 = [.str "a", .str "b"] ∧
      (w.after (call [.str "0", .str "x"])).items 1 = [.str "x", .str "b"] ∧
      (w.after (call [.str "#pop"])).items 1 = [.str "a"] ∧
      meddlingOperand.reading 0 (.named "_x") = .bool false ∧
      (meddlingOperand.after (call [.str "||", .entity 1, .entity 0])).reading 0 (.named "_x") =
        .bool true := by
  intro p w call
  exact ⟨sequenceOwner_free (by simp [Value.handle?]), rfl, rfl, rfl, rfl, rfl, rfl⟩

end Accessors
