import Accessors.Proofs.Session

/-! The slots of typed properties. However a session went, the slot of a typed property with
a generated key is empty or holds what the property's constructor accepts. -/

namespace Accessors

theorem Constructor.Holds.defined {w : World} {c : Constructor} {v : Value} (h : c.Holds w v) :
    v.isUndefined = false := by
  rcases h with accepted | ⟨_, n, rfl⟩
  · cases v with
    | undefined => cases c <;> simp [accepts, NativeType.accepts] at accepted
    | _ => rfl
  · rfl

/-- In every world that a host can reach, whatever calls were made on it, whether they ended
well or failed: the slot of a typed property with a generated key, on any instance, is
absent or holds what the constructor accepts, a number for integers, and never undefined. -/
theorem typed_slot_holds {w : World} {made : List Property} (session : Session w made)
    {p : Property} (known : p ∈ made) {id : Nat} {c : Constructor} {defaults : List Value}
    (kind : p.kind = .typed (.generated id) c defaults) (r : Ref) :
    w.slot? r (.generated id) = none ∨
      ∃ v, w.slot? r (.generated id) = some v ∧ v.isUndefined = false ∧
        (c.accepts w v = true ∨ c = .native .integer ∧ ∃ n, v = .number n) := by
  cases found : w.slot? r (.generated id) with
  | none => exact .inl rfl
  | some v =>
    have keyed : p.storageKey? = some (.generated id) := by rw [Property.storageKey?, kind]
    obtain ⟨q, mem, keyed', holds⟩ := session.sound.stored r id v found id rfl
    have same : p = q := session.sound.apart p known q mem id keyed keyed'
    subst same
    have held := holds c defaults kind
    exact .inr ⟨v, rfl, held.defined, held⟩

/-- An integer property that was read once: its slot holds a number that the constructor, which
accepts nothing, has made. -/
theorem read_integer_holds :
    let p : Property := ⟨9, .typed (.generated 0) (.native .integer) []⟩
    let type : EntityType := { EntityType.bare "T" with properties := Table.ofList [("n", p)] }
    let declared := { World.initial with nextSlot := 1, nextProperty := 10 }.after (declareType type)
    let created := declared.after ((Operation.construct 0 []).performWith (engine 1))
    let w := created.after ((Operation.invoke p (.entity 0) []).performWith (engine 1))
    Session w [p] ∧ p.kind = .typed (.generated 0) (.native .integer) [] ∧
      w.slot? 0 (.generated 0) = some (.number Number.nan) ∧
      (w.slot? 0 (.generated 0) = none ∨
        ∃ v, w.slot? 0 (.generated 0) = some v ∧ v.isUndefined = false ∧
          ((Constructor.native .integer).accepts w v = true ∨
            Constructor.native .integer = .native .integer ∧ ∃ n, v = .number n)) := by
  intro p type declared created w
  have session : Session w [p] := by
    refine .perform (.perform (.declare (.byHand .start _ fun id i own => ?_) type fun q value => ?_)
      (.construct 0 []) 1 fun _ _ _ eq => ?_) (.invoke p (.entity 0) []) 1 fun _ _ _ eq => ?_
    · cases own
      rfl
    · obtain ⟨entry, mem, rfl⟩ := Table.mem_values_ofList value
      rw [List.mem_singleton.mp mem]
      exact .inl List.mem_cons_self
    · cases eq
    · cases eq
      exact .inl List.mem_cons_self
  have known : p ∈ [p] := List.mem_cons_self
  exact ⟨session, rfl, rfl, typed_slot_holds session known rfl 0⟩

end Accessors
