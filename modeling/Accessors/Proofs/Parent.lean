import Accessors.Proofs.StrictMode

/-! Nested entities and their owners. A typed property stores a nested entity and then calls
its `setParent`. When that returns, the entity is attached; when it fails, the call of the
property fails with it and the entity stays in the slot, where the next call finds it. So
every entity that was ever stored is attached later on, unless a call failed right there. -/

namespace Accessors

def World.Tells (w w' : World) (story : List Tie) : Prop :=
  w'.ties = w.ties.map (· ++ story)

namespace World.Tells
variable {w w₁ w₂ : World} {first second : List Tie}

theorem of_same (same : w₁.ties = w.ties) : w.Tells w₁ [] := by
  unfold Tells
  rw [Ghost.map_append_nil, same]

theorem trans (early : w.Tells w₁ first) (late : w₁.Tells w₂ second) :
    w.Tells w₂ (first ++ second) := by
  unfold Tells at *
  rw [late, early, Ghost.map_map]
  simp

theorem note (w : World) (tie : Tie) : w.Tells (w.note tie) [tie] := rfl

end World.Tells

def Settled (w : World) (past after : List Tie) (r n : Ref) (failed : Stop → World → Prop) :
    Ending Unit → Prop
  | .ok _ w₂ =>
    ∃ meanwhile rest, after = meanwhile ++ .attached r n :: rest ∧ w.Tells w₂ (past ++ meanwhile)
  | .error stop w₂ => failed stop w₂

def World.storing (w : World) (r : Ref) (key : StorageKey) (n : Ref) : World :=
  (w.after (setSlot r key (.entity n))).note (.stored r key n)

/-- Every entity of a story was stored in a world that the story leads to, where its
`setParent` was called at once. -/
def Accounted (w : World) (story : List Tie) (failed : Stop → World → Prop) : Prop :=
  ∀ before r key n after, story = before ++ .stored r key n :: after →
    ∃ (w₁ : World) (depth : Nat), w.Tells (w₁.storing r key n) (before ++ [.stored r key n]) ∧
      Settled w (before ++ [.stored r key n]) after r n failed
        ((attachParent (engine depth) (.entity n) (.entity r)).run (w₁.storing r key n))

theorem append_eq_append_cons {α : Type} {first second before after : List α} {x : α}
    (h : first ++ second = before ++ x :: after) :
    (∃ rest, first = before ++ x :: rest ∧ after = rest ++ second) ∨
      ∃ earlier, before = first ++ earlier ∧ second = earlier ++ x :: after := by
  rcases List.append_eq_append_iff.mp h with ⟨earlier, hb, hs⟩ | ⟨rest, hf, hx⟩
  · exact .inr ⟨earlier, hb, hs⟩
  · cases rest with
    | nil => exact .inr ⟨[], by simpa using hf.symm, by simpa using hx.symm⟩
    | cons y rest =>
      obtain ⟨rfl, rfl⟩ := List.cons.inj hx
      exact .inl ⟨rest, hf, rfl⟩

namespace Settled
variable {w w₁ : World} {past after first second : List Tie} {r n : Ref}
  {failed failed' : Stop → World → Prop} {e : Ending Unit}

theorem imp (h : Settled w past after r n failed e)
    (weaker : ∀ stop w', failed stop w' → failed' stop w') :
    Settled w past after r n failed' e := by
  cases e with
  | ok u w₂ => exact h
  | error stop w₂ => exact weaker stop w₂ h

theorem append (h : Settled w past first r n failed e) (second : List Tie) :
    Settled w past (first ++ second) r n failed e := by
  cases e with
  | ok u w₂ =>
    obtain ⟨meanwhile, rest, rfl, tells⟩ := h
    exact ⟨meanwhile, rest ++ second, by simp, tells⟩
  | error stop w₂ => exact h

theorem later (earlier : w.Tells w₁ first) (h : Settled w₁ past after r n failed e) :
    Settled w (first ++ past) after r n failed e := by
  cases e with
  | ok u w₂ =>
    obtain ⟨meanwhile, rest, eq, tells⟩ := h
    exact ⟨meanwhile, rest, eq, by simpa using earlier.trans tells⟩
  | error stop w₂ => exact h

end Settled

namespace Accounted
variable {w w₁ w₂ : World} {first second : List Tie} {failed failed' : Stop → World → Prop}

theorem nil : Accounted w [] failed :=
  fun before _ _ _ _ h => by simp at h

theorem attached (r n : Ref) : Accounted w [.attached r n] failed := by
  intro before s key m after h
  cases before with
  | nil => cases h
  | cons tie rest => simp at h

theorem imp (h : Accounted w first failed)
    (weaker : ∀ stop w', failed stop w' → failed' stop w') : Accounted w first failed' := by
  intro before r key n after eq
  obtain ⟨w₁, depth, tells, settled⟩ := h before r key n after eq
  exact ⟨w₁, depth, tells, settled.imp weaker⟩

theorem append (early : Accounted w first failed) (tells : w.Tells w₁ first)
    (late : Accounted w₁ second failed) : Accounted w (first ++ second) failed := by
  intro before r key n after eq
  rcases append_eq_append_cons eq with ⟨rest, here, rfl⟩ | ⟨earlier, rfl, there⟩
  · obtain ⟨w', depth, led, settled⟩ := early before r key n rest here
    exact ⟨w', depth, led, settled.append second⟩
  · obtain ⟨w', depth, led, settled⟩ := late earlier r key n after there
    refine ⟨w', depth, by simpa using tells.trans led, ?_⟩
    simpa using settled.later tells

theorem stored {r : Ref} {key : StorageKey} {n : Ref} (depth : Nat)
    (settled : Settled w [.stored r key n] second r n failed
      ((attachParent (engine depth) (.entity n) (.entity r)).run (w.storing r key n)))
    (late : Accounted (w.storing r key n) second failed) :
    Accounted w (.stored r key n :: second) failed := by
  have tells : w.Tells (w.storing r key n) [.stored r key n] := rfl
  intro before s key' m after eq
  cases before with
  | nil =>
    cases eq
    exact ⟨w, depth, tells, settled⟩
  | cons tie earlier =>
    obtain ⟨rfl, there⟩ := List.cons.inj eq
    obtain ⟨w', depth', led, settled'⟩ := late earlier s key' m after there
    have shifted := Settled.later tells settled'
    exact ⟨w', depth', tells.trans led, shifted⟩

end Accounted

def Told (ρ : Rules) {α : Type} (a : Action α) : Prop :=
  ∀ w, w.types = ρ.types → (w.after a).types = ρ.types ∧
    ∃ story, w.Tells (w.after a) story ∧
      Accounted w story fun stop w' => a.run w = .error stop w'

namespace Told
variable {ρ : Rules} {α β : Type}

theorem silent {a : Action α} (types : ∀ w : World, (w.after a).types = w.types)
    (ties : ∀ w : World, (w.after a).ties = w.ties) : Told ρ a :=
  fun w same => ⟨(types w).trans same, [], .of_same (ties w), .nil⟩

theorem bind {a : Action α} {k : α → Action β} (ha : Told ρ a) (hk : ∀ v, Told ρ (k v)) :
    Told ρ (a >>= k) := by
  intro w types
  obtain ⟨kept, early, tells, accounted⟩ := ha w types
  cases ending : a.run w with
  | error stop w' =>
    have stops : (a >>= k).run w = .error stop w' := by rw [EStateM.run_bind, ending]
    rw [World.after_eq_of_error ending] at kept tells
    rw [ending] at accounted
    rw [World.after_eq_of_error stops, stops]
    refine ⟨kept, early, tells, accounted.imp fun stop' w'' failed => ?_⟩
    cases failed
    rfl
  | ok v w' =>
    have continues : (a >>= k).run w = (k v).run w' := by rw [EStateM.run_bind, ending]
    have after : w.after (a >>= k) = w'.after (k v) := congrArg Ending.world continues
    rw [World.after_eq_of_ok ending] at kept tells
    rw [ending] at accounted
    obtain ⟨kept', late, tells', accounted'⟩ := hk v w' kept
    rw [after, continues]
    refine ⟨kept', early ++ late, tells.trans tells', .append ?_ tells accounted'⟩
    exact accounted.imp fun stop w'' failed => nomatch failed

theorem setSlot (r : Ref) (key : StorageKey) (v : Value) : Told ρ (setSlot r key v) :=
  silent (fun _ => rfl) fun _ => rfl

theorem place {r : Ref} (key : StorageKey) {v : Value} (depth : Nat)
    (told : Told ρ (attachParent (engine depth) v (.entity r))) :
    Told ρ (place (engine depth) r key v) := by
  cases v with
  | entity n =>
    intro w types
    have tells : w.Tells (w.storing r key n) [.stored r key n] := rfl
    obtain ⟨kept, story, led, accounted⟩ := told (w.storing r key n) types
    have stored : (Accessors.place (engine depth) r key (.entity n)).run w =
        (attachParent (engine depth) (.entity n) (.entity r) >>= fun _ =>
          note (.attached r n)).run (w.storing r key n) := rfl
    rw [EStateM.run_bind] at stored
    cases ending : (attachParent (engine depth) (.entity n) (.entity r)).run (w.storing r key n) with
    | ok u w₂ =>
      rw [World.after_eq_of_ok ending] at kept led
      rw [ending] at stored accounted
      have noted := World.Tells.note w₂ (.attached r n)
      rw [World.after_eq_of_ok stored]
      refine ⟨kept, .stored r key n :: (story ++ [.attached r n]), ?_, ?_⟩
      · exact tells.trans (led.trans noted)
      refine .stored depth ?_ (.append ?_ led (.attached r n))
      · rw [ending]
        exact ⟨story, [], rfl, tells.trans led⟩
      · exact accounted.imp fun stop w' failed => nomatch failed
    | error stop w₂ =>
      rw [World.after_eq_of_error ending] at kept led
      rw [ending] at stored accounted
      rw [World.after_eq_of_error stored, stored]
      refine ⟨kept, .stored r key n :: story, tells.trans led, .stored depth ?_ accounted⟩
      rw [ending]
      exact rfl
  | _ => exact setSlot r key _

end Told

def Rules.bounded (types : Array EntityType) : Rules :=
  { lenient types with
    engines := fun e => ∃ depth, e = engine depth
    nested := fun depth => ⟨depth, rfl⟩ }

theorem Stepwise.told {types : Array EntityType} {α : Type} {a : Action α}
    (h : Stepwise (.bounded types) a) : Told (.bounded types) a := by
  induction h with
  | quiet stays =>
    have evolves (w : World) := (stays w (Region.sealed_everything w)).2.after.1
    exact .silent (fun w => (evolves w).types) fun w => by rw [(evolves w).scene]
  | stop s => exact .silent (fun _ => rfl) fun _ => rfl
  | bind first next ihFirst ihNext => exact ihFirst.bind ihNext
  | look same next ih => exact fun w types => ih w types w types
  | create type => exact .silent (fun _ => rfl) fun _ => rfl
  | store r key first admitted next ihFirst ihNext =>
    exact ihFirst.bind fun v => (Told.setSlot r key v).bind fun _ => ihNext v
  | place ruled r key first admitted told next ihFirst ihTold ihNext =>
    obtain ⟨depth, rfl⟩ := ruled
    exact ihFirst.bind fun v => (Told.place key depth (ihTold v)).bind fun _ => ihNext v
  | report kind text =>
    refine .silent (fun w => ?_) fun w => ?_
    · rw [World.after_report]
      rfl
    · rw [World.after_report]
      rfl

end Accessors
