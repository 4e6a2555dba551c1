import Accessors.Proofs.Forwarding
import Accessors.Proofs.Replacement

/-! Reading a property of the nested value through a typed property. A call with a plain key and
nothing else gives what the property of that key gives, and stores nothing. A result that is the
very value the call started from cannot be told from a setter's, which answers its receiver, and so
the owner is the answer then. Main statement: `key_reads_unless_same`. -/

namespace Accessors

/-- The instance `o` has a typed property of an entity type, and reads it. A call of that property
with a plain key under which a property is found for what was read invokes that one without
arguments, and leaves what the invocation leaves. It answers what the invocation gives, but for the
owner where that is the very value that was read: the same handle, or an equal scalar. What is
undefined or null has no properties: there the key is written. -/
theorem key_reads_unless_same {w w₁ : World} {o : Ref} {t : TypeId} {name q text : String}
    {p r : Property} {slot : StorageKey} {defaults : List Value}
    (owned : (w.typeOf o).property? name = some p)
    (typed : p.kind = .typed slot (.entity t) defaults) {depth : Nat} {current : Value}
    (reads : (callMember (engine depth) (.entity o) name []).run w = .ok current w₁)
    (plain : Instruction.parse q = .key text)
    (found : w₁.findProperty? current (some (.entity t)) q = some r) :
    let e := engine depth
    let call := (callMember e (.entity o) name [.str q]).run w
    let read := (r.invoke e current []).run w₁
    (current.isNullish = false →
      (∀ v w', read = .ok v w' → (v.same current = false → call = .ok v w') ∧
        (v.same current = true → call = .ok (.entity o) w')) ∧
      ∀ stop w', read = .error stop w' → call = .error stop w') ∧
    (current.isNullish = true →
      call = (p.kind.settle e (.entity o) (.str q) [] .request).run w₁) := by
  intro e call read
  rw [callMember_property _ owned] at reads
  have called : call = (p.invoke e (.entity o) [.str q]).run w := callMember_property e owned _
  rw [called]
  refine ⟨fun present => ?_, fun nullish => p.call_nullish typed reads nullish _ _⟩
  rw [p.call_typed typed reads, EStateM.run_bind, evaluate_found e present plain found,
    EStateM.run_bind]
  constructor
  · intro v w' given
    rw [show (r.invoke e current []).run w₁ = _ from given]
    constructor
    · intro other
      simp only [other]
      rfl
    · intro same
      simp only [same]
      rfl
  · intro stop w' failed
    rw [show (r.invoke e current []).run w₁ = _ from failed]

/-- A part with two scales. The first one has a text as its `value`, and two more properties, one of
them equal to it; the second one has an undefined `value`. -/
def scaledPart : World :=
  let scale (name : String) (value : Value) : EntityType :=
    { EntityType.bare name with
      properties := Table.ofList [("value", ⟨9, .constant value⟩),
        ("tonic", ⟨10, .constant (.str "c")⟩), ("mode", ⟨11, .constant (.str "major")⟩)] }
  let part : EntityType :=
    { EntityType.bare "Part" with
      properties := Table.ofList [("scale", ⟨12, .typed (.generated 0) (.entity 0) []⟩),
        ("blank", ⟨13, .typed (.generated 1) (.entity 1) []⟩)] }
  { World.initial with
    types := #[scale "Scale" (.str "c"), scale "Blank" .undefined, part]
    objects := #[.entity ⟨2, .empty, [(0, .entity 1), (1, .entity 2)]⟩, .entity ⟨0, .empty, []⟩,
      .entity ⟨1, .empty, []⟩] }

/-- The mode of the first scale is read through the part. -/
theorem mode_read_through_part :
    (callMember (engine 2) (.entity 0) "scale" [.str "mode"]).run scaledPart =
      .ok (.str "major") scaledPart := by
  have owned : (scaledPart.typeOf 0).property? "scale" =
      some ⟨12, .typed (.generated 0) (.entity 0) []⟩ := rfl
  have reads : (callMember (engine 2) (.entity 0) "scale" []).run scaledPart =
      .ok (.str "c") scaledPart := rfl
  have plain : Instruction.parse "mode" = .key "mode" := by decide
  have found : scaledPart.findProperty? (.str "c") (some (.entity 0)) "mode" =
      some ⟨11, .constant (.str "major")⟩ := rfl
  exact (((key_reads_unless_same owned rfl reads plain found).1 rfl).1 _ _ rfl).1 (by decide)

/-- Its tonic is the text that is its `value`, and the part is the answer. So it is for the second
scale, which has no value to read properties of: there the key is written. -/
theorem tonic_mistaken_for_setting :
    let w := scaledPart
    let e := engine 2
    let tonic : Property := ⟨10, .constant (.str "c")⟩
    let call (name : String) := (callMember e (.entity 0) name [.str "tonic"]).run w
    Instruction.parse "tonic" = .key "tonic" ∧
    (w.slot? 0 (.generated 0) = some (.entity 1) ∧
      (callMember e (.entity 0) "scale" []).run w = .ok (.str "c") w ∧
      w.findProperty? (.str "c") (some (.entity 0)) "tonic" = some tonic ∧
      (tonic.invoke e (.str "c") []).run w = .ok (.str "c") w ∧
      call "scale" = .ok (.entity 0) w ∧ ∀ w', call "scale" ≠ .ok (.str "c") w') ∧
    (w.slot? 0 (.generated 1) = some (.entity 2) ∧
      (callMember e (.entity 0) "blank" []).run w = .ok .undefined w ∧
      w.findProperty? .undefined (some (.entity 1)) "tonic" = some tonic ∧
      (tonic.invoke e .undefined []).run w = .ok (.str "c") w ∧
      ∀ w', call "blank" ≠ .ok (.str "c") w') := by
  intro w e tonic call
  have scale : call "scale" = .ok (.entity 0) w := rfl
  have blank : ∃ w', call "blank" = .ok (.entity 0) w' := ⟨_, rfl⟩
  refine ⟨by decide, ⟨rfl, rfl, rfl, rfl, scale, fun w' => ?_⟩, ⟨rfl, rfl, rfl, rfl, fun w' => ?_⟩⟩
  · rw [scale]
    exact nofun
  · obtain ⟨w'', blank⟩ := blank
    rw [blank]
    exact nofun

end Accessors
