import Accessors.Proofs.DefaultIsolation
import Accessors.Proofs.InstructionGrammar
import Accessors.Proofs.Replacement

/-! A basic property is a cell whose default is copied on demand. What is written stays until the
next write, whatever text it is, as long as a text that starts with `#` is given with one `#` more.
Where nothing was written, or undefined, the first access copies the default, and that copy is read
until something is written. Main statement: `basic_property_is_cell`, by induction over the run. -/

namespace Accessors

def Succeeds {α : Type} (a : Action α) : Prop :=
  ∀ w, ∃ v w', a.run w = .ok v w'

namespace Succeeds
variable {α β : Type}

theorem pure (v : α) : Succeeds (Pure.pure v) := fun w => ⟨v, w, rfl⟩

theorem bind {a : Action α} {k : α → Action β} (first : Succeeds a)
    (next : ∀ v, Succeeds (k v)) : Succeeds (a >>= k) := by
  intro w
  obtain ⟨v, w₁, ran⟩ := first w
  rw [EStateM.run_bind, ran]
  exact next v w₁

theorem get {k : World → Action β} (next : ∀ w, Succeeds (k w)) : Succeeds (get >>= k) :=
  fun w => next w w

theorem mapM {f : α → Action β} (xs : List α) (each : ∀ x, Succeeds (f x)) :
    Succeeds (xs.mapM f) := by
  induction xs with
  | nil =>
    rw [List.mapM_nil]
    exact pure []
  | cons x xs ih =>
    rw [List.mapM_cons]
    exact bind (each x) fun v => bind ih fun vs => pure _

theorem newSeq (items : List Value) : Succeeds (newSeq items) := fun _ => ⟨_, _, rfl⟩

theorem newRecord (fields : Table Value) : Succeeds (newRecord fields) := fun _ => ⟨_, _, rfl⟩

theorem newDate (moment : Calendar.Moment) : Succeeds (newDate moment) := fun _ => ⟨_, _, rfl⟩

end Succeeds

theorem shallowCopy_succeeds (v : Value) : Succeeds (shallowCopy v) := by
  refine .get fun w => ?_
  cases v with
  | seq r => exact .newSeq _
  | record r => exact .newRecord _
  | date r => exact .newDate _
  | _ => exact .pure _

theorem deepCopyWithin_succeeds (levels : Nat) (v : Value) :
    Succeeds (deepCopyWithin levels v) := by
  induction levels generalizing v with
  | zero =>
    unfold deepCopyWithin
    refine .get fun w => ?_
    cases v with
    | date r => exact .newDate _
    | _ => exact .pure _
  | succ levels ih =>
    unfold deepCopyWithin
    refine .get fun w => ?_
    cases v with
    | seq r => exact .bind (.mapM _ ih) fun items => .newSeq items
    | record r =>
      exact .bind (.mapM _ fun entry => .bind (ih entry.2) fun copy => .pure _) fun entries =>
        .newRecord _
    | date r => exact .newDate _
    | _ => exact .pure _

namespace ClonePolicy

theorem apply_succeeds (policy : ClonePolicy) (default : Value) :
    Succeeds (policy.apply default) := by
  cases policy with
  | identity => exact .pure default
  | shallow => exact shallowCopy_succeeds default
  | deep => exact .get fun w => deepCopyWithin_succeeds w.levels default

theorem apply_isUndefined {policy : ClonePolicy} {default v : Value} {w w' : World}
    (some : w.objects.size ≠ 0) (made : (policy.apply default).run w = .ok v w') :
    v.isUndefined = default.isUndefined := by
  cases policy with
  | identity =>
    cases made
    rfl
  | shallow => cases default <;> cases made <;> rfl
  | deep =>
    change (deepCopyWithin w.objects.size default).run w = _ at made
    obtain ⟨levels, size⟩ := Nat.exists_eq_succ_of_ne_zero some
    rw [size] at made
    unfold deepCopyWithin at made
    rw [EStateM.run_bind, EStateM.run_get] at made
    cases default with
    | seq r | record r =>
      obtain ⟨items, w₁, _, ended⟩ := World.run_bind_ok made
      cases ended
      rfl
    | _ =>
      cases made
      rfl

end ClonePolicy

/-- How a value is given so that it is written as it is: a text that starts as an instruction
does gets a `#` in front. -/
def Value.quoted : Value → Value
  | .str s => .str (if s.toList.head? = some '#' then "#" ++ s else s)
  | v => v

theorem evaluateKey_scalar {w : World} {current : Value} (scalar : current.isScalar = true)
    (key : Value) (args : List Value) (next : Value → Option Constructor → Action Outcome)
    (call : Property → Action Value) :
    (evaluateKey current key args none next call).run w = .ok .request w := by
  have unkeyed : current.isKeyed = false := by cases current <;> first | rfl | cases scalar
  have unnamed (name : String) : w.findProperty? current none name = none := by
    cases current <;> first | rfl | cases scalar
  unfold evaluateKey
  cases key with
  | str name =>
    dsimp only
    rw [EStateM.run_bind, EStateM.run_get]
    simp only [unnamed, unkeyed]
    rfl
  | number n =>
    simp only [unkeyed]
    rfl
  | _ => rfl

theorem evaluate_quoted (e : Engine) (w : World) {current : Value}
    (scalar : current.isScalar = true) (v : Value) :
    (evaluate e current v.quoted [] none).run w = .ok (.write v) w ∨
      v.quoted = v ∧ (evaluate e current v.quoted [] none).run w = .ok .request w := by
  have present := Value.isNullish_of_isScalar scalar
  have asKey := evaluateKey_scalar (w := w) scalar v [] (fun _ _ => pure .done)
    fun p => p.kind.invoke e current [] fun _ _ => pure .done
  cases v with
  | str s =>
    by_cases marked : s.toList.head? = some '#'
    · left
      have literal : Instruction.parse ("#" ++ s) = .literal s :=
        Instruction.parse_eq_iff.mpr ⟨rfl, marked⟩
      unfold Value.quoted
      simp only [marked, if_true]
      unfold evaluate evaluateWith
      simp only [present, literal]
      rfl
    · right
      have same : Value.quoted (.str s) = .str s := by simp [Value.quoted, marked]
      rw [same]
      refine ⟨rfl, ?_⟩
      unfold evaluate evaluateWith
      simp only [present]
      have spelled := Instruction.spelled_parse s
      cases reads : Instruction.parse s with
      | method name assign =>
        rw [reads] at spelled
        obtain ⟨r, stem, rfl, _⟩ := spelled
        simp at marked
      | literal t =>
        rw [reads] at spelled
        obtain ⟨rfl, _⟩ := spelled
        simp at marked
      | operator op assign => exact asKey
      | key t => exact asKey
  | _ =>
    right
    refine ⟨rfl, ?_⟩
    unfold Value.quoted evaluate evaluateWith
    simp only [present]
    exact asKey

section
variable {p : Property} {slot : StorageKey} {default : Value} {policy : ClonePolicy}
  (basic : p.kind = .basic slot default policy) {r : Ref} {w : World}
include basic

theorem Property.read_filled {v : Value} (held : w.slot? r slot = some v)
    (defined : v.isUndefined = false) (e : Engine) :
    (p.invoke e (.entity r) []).run w = .ok v w := by
  rw [p.read_basic e basic]
  exact currentSlot_filled held defined _

theorem Property.read_empty (empty : ∀ v, w.slot? r slot = some v → v.isUndefined = true)
    (e : Engine) :
    ∃ v w₁, (policy.apply default).run w = .ok v w₁ ∧
      (p.invoke e (.entity r) []).run w = .ok v (w₁.after (setSlot r slot v)) := by
  obtain ⟨v, w₁, made⟩ := policy.apply_succeeds default w
  refine ⟨v, w₁, made, ?_⟩
  rw [p.read_basic e basic, readBasic_empty empty, made]
  rfl

theorem Property.write_quoted {e e' : Engine} {current : Value} {w₁ : World}
    (reads : (p.invoke e' (.entity r) []).run w = .ok current w₁)
    (scalar : current.isScalar = true) (v : Value) :
    (p.invoke e (.entity r) [v.quoted]).run w =
      .ok (.entity r) (w₁.after (setSlot r slot v)) := by
  rw [p.read_basic e' basic] at reads
  rcases evaluate_quoted e w₁ scalar v with written | ⟨same, requested⟩
  · exact invoke_basic_eq e basic reads written
  · rw [invoke_basic_eq e basic reads requested]
    exact congrArg (fun u => EStateM.Result.ok (Value.entity r) (w₁.after (setSlot r slot u))) same

theorem Property.read_keeps_instance {e : Engine} {v : Value} {w₁ : World}
    (reads : (p.invoke e (.entity r) []).run w = .ok v w₁) (s : Ref) :
    w₁.typeId? s = w.typeId? s := by
  rcases w.filled_or_empty r slot with ⟨u, held, defined⟩ | empty
  · rw [p.read_filled basic held defined] at reads
    cases reads
    rfl
  · obtain ⟨u, w', made, read⟩ := p.read_empty basic empty e
    have grown := ClonePolicy.apply_growing policy default w
    rw [World.after_eq_of_ok made] at grown
    rw [reads] at read
    cases read
    rw [World.typeId?_setSlot]
    exact grown.typeId s

end

inductive Access where
  | read
  | write (v : Value)

namespace Access

def perform (e : Engine) (p : Property) (r : Ref) : Access → Action Value
  | read => p.invoke e (.entity r) []
  | write v => p.invoke e (.entity r) [v.quoted]

/-- Writing is for when the property has a boolean, a number or a text. -/
def Suits (p : Property) (r : Ref) (w : World) : Access → Prop
  | read => True
  | write _ =>
    ∃ e current w₁, (p.invoke e (.entity r) []).run w = .ok current w₁ ∧ current.isScalar = true

/-- What was written last, after what there was at first. The newest access comes first, each
with the world in which it was made. -/
def written (first : Option Value) : List (World × Access) → Option Value
  | [] => first
  | (_, write v) :: _ => some v
  | (_, read) :: earlier => written first earlier

/-- The world in which the property was read for the first time since the last write. -/
def firstRead? : List (World × Access) → Option World
  | [] => none
  | (_, write _) :: _ => none
  | (w, read) :: earlier => (firstRead? earlier).or (some w)

end Access

/-- Runs of accesses of a property of one instance, through engines of any depth. Whatever goes on
in between leaves the instance in place and the property's slot alone. -/
inductive Accessed (p : Property) (slot : StorageKey) (r : Ref) (w₀ : World) :
    List (World × Access) → World → Prop
  | start : Accessed p slot r w₀ [] w₀
  | meanwhile {log : List (World × Access)} {w w' : World} (sofar : Accessed p slot r w₀ log w)
    (there : w'.typeId? r = w.typeId? r) (kept : w'.slot? r slot = w.slot? r slot) :
    Accessed p slot r w₀ log w'
  | access {log : List (World × Access)} {w : World} (sofar : Accessed p slot r w₀ log w)
    (e : Engine) (a : Access) (suits : a.Suits p r w) :
    Accessed p slot r w₀ ((w, a) :: log) (w.after (a.perform e p r))

/-- What stands in the slot of a cell: what was written last, where that is something; else the
copy of the default that was made at the first reading since, or nothing if there was none. -/
inductive CellHolds (slot : StorageKey) (default : Value) (policy : ClonePolicy) (r : Ref)
    (w : World) : Option Value → Option World → Prop
  | written {v : Value} {first : Option World} (defined : v.isUndefined = false)
    (held : w.slot? r slot = some v) : CellHolds slot default policy r w (some v) first
  | copied {last : Option Value} {v : Value} {w₁ w₂ : World}
    (unset : ∀ u, last = .some u → u.isUndefined = true) (some : w₁.objects.size ≠ 0)
    (made : (policy.apply default).run w₁ = .ok v w₂) (held : w.slot? r slot = .some v) :
    CellHolds slot default policy r w last (.some w₁)
  | empty {last : Option Value} (unset : ∀ u, last = some u → u.isUndefined = true)
    (empty : ∀ u, w.slot? r slot = some u → u.isUndefined = true) :
    CellHolds slot default policy r w last none

theorem World.size_of_typeId {w : World} {r : Ref} {t : TypeId} (owner : w.typeId? r = some t) :
    w.objects.size ≠ 0 := by
  obtain ⟨inst, found⟩ := World.entity_of_typeId owner
  obtain ⟨within, _⟩ := Array.getElem?_eq_some_iff.mp found
  omega

namespace CellHolds
variable {p : Property} {slot : StorageKey} {default : Value} {policy : ClonePolicy} {r : Ref}
  {t : TypeId} {w : World} {last : Option Value} {first : Option World}

theorem kept (holds : CellHolds slot default policy r w last first) {w' : World}
    (same : w'.slot? r slot = w.slot? r slot) : CellHolds slot default policy r w' last first := by
  cases holds with
  | written defined held => exact .written defined (same.trans held)
  | copied unset some made held => exact .copied unset some made (same.trans held)
  | empty unset empty => exact .empty unset (same ▸ empty)

theorem start (default : Value) (policy : ClonePolicy) (r : Ref) (w : World) :
    CellHolds slot default policy r w (w.slot? r slot) none := by
  rcases w.filled_or_empty r slot with ⟨v, held, defined⟩ | empty
  · rw [held]
    exact .written defined held
  · exact .empty empty empty

theorem stored (owner : w.typeId? r = some t) (default : Value) (policy : ClonePolicy) (v : Value) :
    CellHolds slot default policy r (w.after (setSlot r slot v)) (some v) none := by
  have held := World.slot?_of_set owner slot v
  cases defined : v.isUndefined with
  | false => exact .written defined held
  | true =>
    refine .empty (fun u same => ?_) fun u found => ?_
    · rw [← Option.some.inj same, defined]
    · rw [← Option.some.inj (held.symm.trans found), defined]

theorem read (holds : CellHolds slot default policy r w last first)
    (basic : p.kind = .basic slot default policy) (owner : w.typeId? r = some t) (e : Engine) :
    ∃ v w', (p.invoke e (.entity r) []).run w = .ok v w' ∧
      CellHolds slot default policy r w' last (first.or (some w)) ∧
      (∀ u, last = some u → u.isUndefined = false → v = u ∧ w' = w) ∧
      ((∀ u, last = some u → u.isUndefined = true) →
        ∃ w₁, (policy.apply default).run (first.getD w) = .ok v w₁ ∧
          (first = none → w' = w₁.after (setSlot r slot v)) ∧
          (first ≠ none → default.isUndefined = false → w' = w)) := by
  have someObject := World.size_of_typeId owner
  cases holds with
  | @written u _ defined held =>
    refine ⟨u, w, p.read_filled basic held defined e, .written defined held, ?_, fun unset => ?_⟩
    · intro v same _
      exact ⟨Option.some.inj same, rfl⟩
    · rw [unset u rfl] at defined
      cases defined
  | @copied _ v w₁ w₂ unset there made held =>
    have written (w' : World) (u : Value) (same : last = some u) (defined : u.isUndefined = false) :
        v = u ∧ w' = w := by
      rw [unset u same] at defined
      cases defined
    cases defined : v.isUndefined with
    | false =>
      exact ⟨v, w, p.read_filled basic held defined e, .copied unset there made held, written w,
        fun _ => ⟨w₂, made, nofun, fun _ _ => rfl⟩⟩
    | true =>
      -- an undefined default is copied again, with the same outcome
      have undefined : default.isUndefined = true :=
        (ClonePolicy.apply_isUndefined there made).symm.trans defined
      have empty : ∀ u, w.slot? r slot = some u → u.isUndefined = true := fun u found => by
        rw [← Option.some.inj (held.symm.trans found), defined]
      obtain ⟨u, w₃, again, reads⟩ := p.read_empty basic empty e
      have undefined' := (ClonePolicy.apply_isUndefined someObject again).trans undefined
      obtain rfl : u = v := (Value.eq_undefined undefined').trans (Value.eq_undefined defined).symm
      have kept : w₃.typeId? r = some t := by
        rw [← World.typeId?_setSlot w₃ r slot u, p.read_keeps_instance basic reads]
        exact owner
      refine ⟨u, _, reads, .copied unset there made (World.slot?_of_set kept slot u), written _,
        fun _ => ⟨w₂, made, nofun, fun _ defined' => ?_⟩⟩
      rw [undefined] at defined'
      cases defined'
  | empty unset empty =>
    obtain ⟨v, w₁, made, reads⟩ := p.read_empty basic empty e
    have kept : w₁.typeId? r = some t := by
      rw [← World.typeId?_setSlot w₁ r slot v, p.read_keeps_instance basic reads]
      exact owner
    have held := World.slot?_of_set kept slot v
    refine ⟨v, _, reads, .copied unset someObject made held, fun u same defined => ?_,
      fun _ => ⟨w₁, made, fun _ => rfl, fun some => absurd rfl some⟩⟩
    rw [unset u same] at defined
    cases defined

end CellHolds

theorem Accessed.holds {p : Property} {slot : StorageKey} {default : Value} {policy : ClonePolicy}
    (basic : p.kind = .basic slot default policy) {w₀ w : World} {r : Ref} {t : TypeId}
    (owner : w₀.typeId? r = some t) {log : List (World × Access)}
    (run : Accessed p slot r w₀ log w) :
    w.typeId? r = some t ∧
      CellHolds slot default policy r w (Access.written (w₀.slot? r slot) log)
        (Access.firstRead? log) := by
  induction run with
  | start => exact ⟨owner, .start default policy r w₀⟩
  | meanwhile _ there kept ih => exact ⟨there.trans ih.1, ih.2.kept kept⟩
  | @access log w _ e a suits ih =>
    obtain ⟨there, holds⟩ := ih
    cases a with
    | read =>
      obtain ⟨v, w', reads, later, _⟩ := holds.read basic there e
      have after : w.after (p.invoke e (.entity r) []) = w' := World.after_eq_of_ok reads
      unfold Access.perform
      rw [after]
      exact ⟨(p.read_keeps_instance basic reads r).trans there, later⟩
    | write v =>
      obtain ⟨e', current, w₁, reads, scalar⟩ := suits
      have after := World.after_eq_of_ok (p.write_quoted (e := e) basic reads scalar v)
      have kept := (p.read_keeps_instance basic reads r).trans there
      unfold Access.perform
      rw [after]
      exact ⟨(World.typeId?_setSlot w₁ r slot v r).trans kept, .stored kept default policy v⟩

/-- A basic property of an instance, after any run of readings and of writes that were made while
it had a boolean, a number or a text. It reads the value that was written last, unless that is
undefined. Else it reads the copy of its default that the first reading since the last write has
made, or makes it now, and then keeps that one. While it has a scalar, a write of any value, any
text included, returns the instance, and the value is read right after. -/
theorem basic_property_is_cell {p : Property} {slot : StorageKey} {default : Value}
    {policy : ClonePolicy} (basic : p.kind = .basic slot default policy) {w₀ w : World} {r : Ref}
    {t : TypeId} (owner : w₀.typeId? r = some t) {log : List (World × Access)}
    (run : Accessed p slot r w₀ log w) (e : Engine) :
    let read := (p.invoke e (.entity r) []).run w
    let last := Access.written (w₀.slot? r slot) log
    let first := Access.firstRead? log
    (∀ v, last = some v → v.isUndefined = false → read = .ok v w) ∧
    ((∀ v, last = some v → v.isUndefined = true) →
      ∃ v w₁ w', (policy.apply default).run (first.getD w) = .ok v w₁ ∧ read = .ok v w' ∧
        (first = none → w' = w₁.after (setSlot r slot v)) ∧
        (first ≠ none → default.isUndefined = false → w' = w)) ∧
    ∀ v, (Access.write v).Suits p r w →
      ∃ w', (p.invoke e (.entity r) [v.quoted]).run w = .ok (.entity r) w' ∧
        (v.isUndefined = false → ∀ e', (p.invoke e' (.entity r) []).run w' = .ok v w') := by
  intro read last first
  obtain ⟨there, holds⟩ := run.holds basic owner
  obtain ⟨v, w', reads, _, written, copied⟩ := holds.read basic there e
  refine ⟨fun u same defined => ?_, fun unset => ?_, fun u suits => ?_⟩
  · obtain ⟨rfl, rfl⟩ := written u same defined
    exact reads
  · obtain ⟨w₁, made, new, kept⟩ := copied unset
    exact ⟨v, w₁, w', made, reads, new, kept⟩
  · obtain ⟨e', current, w₁, given, scalar⟩ := suits
    have kept := (p.read_keeps_instance basic given r).trans there
    refine ⟨_, p.write_quoted basic given scalar u, fun defined e'' => ?_⟩
    exact p.read_filled basic (World.slot?_of_set kept slot u) defined e''

def unlabelledNote : World :=
  { World.initial with types := #[.bare "Note"], objects := #[.entity ⟨0, .empty, []⟩] }

def labelProperty : Property := ⟨9, .basic (.generated 0) (.str "a") .identity⟩

/-- The label is read, set to the text of an operator, and then to what looks like a method. -/
theorem label_takes_any_text :
    let e := engine 1
    let w := unlabelledNote.after (Access.perform e labelProperty 0 .read)
    let w' := w.after (Access.perform e labelProperty 0 (.write (.str "+")))
    (labelProperty.invoke e (.entity 0) []).run w = .ok (.str "a") w ∧
      (labelProperty.invoke e (.entity 0) []).run w' = .ok (.str "+") w' ∧
      ∃ w'', (labelProperty.invoke e (.entity 0) [.str "##new"]).run w' = .ok (.entity 0) w'' ∧
        (labelProperty.invoke e (.entity 0) []).run w'' = .ok (.str "#new") w'' := by
  intro e w w'
  have basic : labelProperty.kind = .basic (.generated 0) (.str "a") .identity := rfl
  have owner : unlabelledNote.typeId? 0 = some 0 := rfl
  have first : Accessed labelProperty (.generated 0) 0 unlabelledNote _ w :=
    .access .start e .read trivial
  have second : Accessed labelProperty (.generated 0) 0 unlabelledNote _ w' :=
    .access first e (.write (.str "+")) ⟨e, .str "a", w, rfl, rfl⟩
  obtain ⟨_, copied, _⟩ := basic_property_is_cell basic owner first e
  obtain ⟨_, _, _, made, reads, _, kept⟩ := copied nofun
  obtain ⟨written, _, writes⟩ := basic_property_is_cell basic owner second e
  have reads' := written (.str "+") rfl rfl
  obtain ⟨w'', stored, reads''⟩ := writes (.str "#new") ⟨e, .str "+", w', reads', rfl⟩
  rw [kept nofun rfl] at reads
  cases made
  exact ⟨reads, reads', w'', stored, reads'' rfl e⟩

end Accessors
