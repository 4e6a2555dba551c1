import Accessors.Proofs.JsonConversion

/-! Changes that a value does not show. The JSON form of a value without entities depends, as its
text does, on the objects that the value leads to. Main statement: whatever happens to other
objects, to slots and by new objects, the text and the JSON form of the value stay
(`Mutations.unobserved`). -/

namespace Accessors

theorem eq_of_forall₂ {α β : Type} {P Q : α → β → Prop} {xs : List α} {ys ys' : List β}
    (h : List.Forall₂ P xs ys) (h' : List.Forall₂ Q xs ys')
    (same : ∀ x ∈ xs, ∀ y y', P x y → Q x y' → y' = y) : ys' = ys := by
  induction h generalizing ys' with
  | nil =>
    cases h'
    rfl
  | cons here _ ih =>
    cases h' with
    | cons here' later' =>
      obtain ⟨first, rest⟩ := List.forall_mem_cons.mp same
      rw [first _ _ here here', ih later' rest]

namespace World.SameOn
variable {S : Ref → Prop} {w w' : World} {n : Nat} {v : Value} {json json' : Option Json}
  (same : SameOn S w w') (grown : w.objects.size ≤ w'.objects.size)
include same

theorem entityFree (on : v.On S) (free : w.EntityFree v) : w'.EntityFree v :=
  fun u contains => free u ((same.contains on).mp contains)

include grown

theorem converts_eq (h : w.Fathoms n v) (on : v.On S) (free : w.EntityFree v)
    (converts : w.Converts n v json) (converts' : w'.Converts n v json') : json' = json := by
  induction h generalizing json json' with
  | @scalar n v bare =>
    obtain ⟨_, before, renders⟩ := (Fathoms.scalar bare).converts free
    obtain ⟨_, after, renders'⟩ := (Fathoms.scalar bare).converts (same.entityFree on free)
    obtain rfl := converts.unique before
    obtain rfl := converts'.unique after
    cases renders with
    | seq each | record each | date r => cases bare
    | _ =>
      cases renders'
      rfl
  | @object n v r handle lt inner ih =>
    have whole : w.Fathoms (n + 1) v := .object handle lt inner
    obtain ⟨_, before, renders⟩ := whole.converts free
    obtain ⟨_, after, renders'⟩ := (same.fathoms grown on whole).converts (same.entityFree on free)
    obtain rfl := converts.unique before
    obtain rfl := converts'.unique after
    have here := on r handle
    -- What is held has the same forms in both worlds, so the lists of forms are the same.
    have held (u : Value) (mem : u ∈ w.held r) {json json' : Option Json}
        (converts : w.Converts n u json) (converts' : w'.Converts n u json') : json' = json :=
      ih u mem (same.closed r here u mem) (free.inside handle mem) converts converts'
    cases renders with
    | date s =>
      cases handle
      cases renders'
      rw [same.moment r here]
    | seq each =>
      cases handle
      cases renders' with
      | seq each' =>
        unfold items at each'
        rw [same.sequence r here] at each'
        rw [eq_of_forall₂ each each' fun u mem _ _ => held u (mem_held_of_items mem)]
    | record each =>
      cases handle
      cases renders' with
      | record each' =>
        rw [same.fields r here] at each'
        unfold MembersOf at each each'
        rw [eq_of_forall₂ each each' fun entry mem member member' said said' => ?_]
        have mem : entry ∈ (w.fields r).entries := (List.mem_filter.mp mem).1
        have form := held entry.2 (mem_held_of_fields (List.mem_map_of_mem mem)) said.2 said'.2
        exact Prod.ext (said'.1.trans said.1.symm) (Option.some.inj form)
    | _ => cases handle

theorem converts (h : w.Fathoms n v) (on : v.On S) (free : w.EntityFree v)
    (converts : w.Converts n v json) : w'.Converts n v json := by
  obtain ⟨json', after, _⟩ := (same.fathoms grown on h).converts (same.entityFree on free)
  obtain rfl := same.converts_eq grown h on free converts after
  exact after

end World.SameOn

/-- What may happen to a world later on: objects of some set and new ones are changed, whatever
they then hold, collections and dates are made, and slots of instances are written. -/
inductive Mutations (S : Ref → Prop) (w : World) : World → Prop
  | none : Mutations S w w
  | change {w₁ : World} (before : Mutations S w w₁) {r : Ref} (may : S r ∨ w.objects.size ≤ r)
      {f : Object → Object} (same : ∀ o, (f o).inst? = o.inst?) : Mutations S w (w₁.update r f)
  | make {w₁ : World} (before : Mutations S w w₁) {o : Object} (plain : o.inst? = .none) :
      Mutations S w (w₁.push o)
  | store {w₁ : World} (before : Mutations S w w₁) (r : Ref) (key : StorageKey) (v : Value) :
      Mutations S w (w₁.after (setSlot r key v))

def Region.touching (S : Ref → Prop) (n : Nat) : Region :=
  ⟨fun r => S r ∨ n ≤ r, fun _ => False, fun _ _ => True⟩

namespace Mutations
variable {S : Ref → Prop} {w w₂ : World}

theorem evolves (run : Mutations S w w₂) : (Region.touching S w.objects.size).Evolves w w₂ := by
  induction run with
  | none => exact .refl w
  | change _ may same ih => exact ih.trans (.update may same)
  | @make w₁ _ o plain ih =>
    have grows : w₁.Grows (w₁.push o) := .push w₁ plain
    have newer (r : Ref) (new : w₁.objects.size ≤ r) : S r ∨ w.objects.size ≤ r :=
      .inr (Nat.le_trans ih.size new)
    exact ih.trans (Region.Evolves.mono grows newer fun _ _ never => never.elim)
  | store _ r key v ih => exact ih.trans (.setSlot trivial v)

theorem unobserved {v : Value} (run : Mutations S w w₂) (finite : w.Finite v)
    (free : w.EntityFree v) (untouched : ∀ s, w.Reaches v s → ¬ S s) :
    w₂.display v = w.display v ∧
      ∃ json, (Operation.valueToJson v).perform.run w = .ok json w ∧
        (Operation.valueToJson v).perform.run w₂ = .ok json w₂ := by
  have evolves := run.evolves
  have fathomed : w.Fathoms w.levels v := finite.choose_spec.levels
  have outside : (Region.touching S w.objects.size).Outside w v := by
    intro s reaches touched
    exact touched.elim (untouched s reaches) (Nat.not_le.mpr (fathomed.lt reaches))
  obtain ⟨json, converts, _⟩ := fathomed.converts free
  have converts' : w₂.Converts w.levels v json :=
    (evolves.same outside).converts evolves.size fathomed (fun _ => .start) free converts
  refine ⟨evolves.display outside finite, json, ?_, ?_⟩
  · exact converts.perform (Nat.le_add_left w.objects.size callDepth)
  · exact converts'.perform (Nat.le_trans evolves.size (Nat.le_add_left w₂.objects.size callDepth))

end Mutations

end Accessors
