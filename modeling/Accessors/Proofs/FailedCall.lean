import Accessors.Proofs.Frame

/-! What a failed call leaves behind. Nothing has been changed when evaluating an instruction
fails, so a call that fails there has done no more than a plain reading does. Only the property
can still fail after that, when it refuses to store the outcome: a read-only property does so
in strict mode, and a typed property of dates with what is no date. By then a method may have
changed its receiver, if the call asked for its result to be stored. -/

namespace Accessors

/-- Why a property refuses to store a value, and with which stop. -/
inductive PropertyKind.Refuses : PropertyKind → Value → Stop → Prop
  | readOnly (key : StorageKey) (v : Value) :
    Refuses (.readOnly (.slot key)) v
      (.error (.misuse ⟨.typeError, "Write to a read only property"⟩))
  | date (key : StorageKey) (defaults : List Value) {v : Value} (undated : ∀ r, v ≠ .date r)
      (error : Error) : Refuses (.typed key (.native .date) defaults) v (.error error)

theorem PropertyKind.Refuses.of_dated {kind : PropertyKind} {v c : Value} {stop : Stop}
    (h : kind.Refuses v stop) (dated : ∀ r, c = .date r → v = c) : kind.Refuses c stop := by
  cases h with
  | readOnly key => exact .readOnly key c
  | date key defaults undated error =>
    exact .date key defaults (fun r same => undated r ((dated r same).trans same)) error

theorem orInvalid_orRefused {α : Type} {text : String} {a : Option α} {stop : Stop}
    (refused : orInvalid text (Calendar.orRefused a) = .error stop) :
    stop = .error (.invalidArguments text) := by
  cases a <;> cases refused
  rfl

theorem World.momentOf_single {w : World} {v : Value} {stop : Stop}
    (failed : w.momentOf [v] = .error stop) : ∃ error, stop = .error error := by
  cases v with
  | date r => cases failed
  | _ => exact ⟨_, orInvalid_orRefused failed⟩

theorem NativeType.construct_error {t : NativeType} {args : List Value} {w w' : World}
    {stop : Stop} (ran : (t.construct args).run w = .error stop w') :
    t = .date ∧ w.momentOf args = .error stop := by
  cases t with
  | date =>
    unfold construct at ran
    simp only [EStateM.run_bind, EStateM.run_get] at ran
    cases taken : w.momentOf args with
    | ok moment =>
      rw [taken] at ran
      cases ran
    | error stop =>
      rw [taken] at ran
      cases ran
      exact ⟨rfl, rfl⟩
  | object | plainObject =>
    unfold construct at ran
    simp only [EStateM.run_bind, EStateM.run_get] at ran
    split at ran
    all_goals cases ran
  | _ => cases ran

theorem coerce_error {e : Engine} {t : NativeType} {v : Value} {args : List Value} {w w' : World}
    {stop : Stop} (ran : (coerce e (.native t) v args).run w = .error stop w') :
    t = .date ∧ (∀ r, v ≠ .date r) ∧ w.momentOf args = .error stop := by
  rw [coerce_run] at ran
  split at ran
  · cases ran
  · rename_i refused
    obtain ⟨rfl, failed⟩ := NativeType.construct_error ran
    refine ⟨rfl, fun r same => refused ?_, failed⟩
    rw [same]
    rfl

namespace PropertyKind.Native
variable {kind : PropertyKind} (native : kind.Native) {e : Engine} {r : Ref} {w w' : World}
  {stop : Stop}
include native

/-- When storing fails, nothing was changed, and the property has refused the value if it was
given alone. -/
theorem store_error {v : Value} {args : List Value}
    (ran : (kind.store e r v args).run w = .error stop w') :
    w.Grows w' ∧ (args = [v] → kind.Refuses v stop) := by
  cases native with
  | basic key default policy => cases ran
  | readOnly key =>
    refine ⟨(Growing.report _ _).of_error ran, fun _ => ?_⟩
    rw [World.report_error ran]
    exact .readOnly key v
  | typed key t defaults =>
    change (coerce e (.native t) v args >>= fun u => place e r key u).run w = _ at ran
    rcases World.run_bind_error ran with failed | ⟨u, w₁, coerced, failed⟩
    · obtain ⟨rfl, undated, untaken⟩ := coerce_error failed
      refine ⟨(coerce_growing e .date v args).of_error failed, fun alone => ?_⟩
      rw [alone] at untaken
      obtain ⟨error, rfl⟩ := World.momentOf_single untaken
      exact .date key defaults undated error
    · rw [place_plain (coerce_isEntity coerced)] at failed
      cases failed

theorem conclude_error {key : Value} {rest : List Value} {outcome : Outcome}
    (ran : (kind.conclude e r key rest outcome).run w = .error stop w') :
    w.Grows w' ∧ (outcome = .request ∨ ∃ v, outcome = .write v ∧ kind.Refuses v stop) := by
  have stored {v : Value} {args : List Value}
      (ran : (kind.store e r v args >>= fun _ => pure (Value.entity r)).run w = .error stop w') :
      (kind.store e r v args).run w = .error stop w' := by
    rcases World.run_bind_error ran with failed | ⟨u, w₁, _, never⟩
    · exact failed
    · cases never
  cases outcome with
  | read v => cases ran
  | write v =>
    obtain ⟨grows, refuses⟩ := native.store_error (stored ran)
    exact ⟨grows, .inr ⟨v, rfl, refuses rfl⟩⟩
  | request => exact ⟨(native.store_error (stored ran)).1, .inl rfl⟩
  | done => cases ran

end PropertyKind.Native

/-- A call of a property with a slot and without functions of a user fails, and there was no
entity in the value read or among the arguments. Then all slots are as a plain reading leaves
them. So is every sequence, record and date that was there before; except that, when the
property refused what a method that changes its receiver gave it to store, those may be
different that can be reached from the value read. -/
theorem failed_call_changes_no_more_than_reading {p : Property} (native : p.kind.Native)
    (e : Engine) (r : Ref) {w w₂ : World} {args : List Value} {stop : Stop}
    (free : ∀ c w₁, (p.invoke e (.entity r) []).run w = .ok c w₁ →
      w₁.EntityFree c ∧ ∀ v ∈ args, w₁.EntityFree v)
    (failed : (p.invoke e (.entity r) args).run w = .error stop w₂) :
    let w₁ := w.after (p.invoke e (.entity r) [])
    (∀ s key, w₂.slot? s key = w₁.slot? s key) ∧
      ∀ s, s < w₁.objects.size → w₁.typeId? s = none →
        w₂.objects[s]? = w₁.objects[s]? ∨
          ∃ c, (p.invoke e (.entity r) []).run w = .ok c w₁ ∧ w₁.Reaches c s ∧
            p.kind.Refuses c stop ∧ ∃ v ∈ args, v.isChange := by
  intro w₁
  have unchanged (grows : w₁.Grows w₂) : (∀ s key, w₂.slot? s key = w₁.slot? s key) ∧
      ∀ s, s < w₁.objects.size → w₁.typeId? s = none → w₂.objects[s]? = w₁.objects[s]? :=
    ⟨fun s key => grows.slots s key nofun, fun s older plain =>
      grows.others s (Nat.not_le.mpr older) plain⟩
  have same (eq : w₁ = w₂) : w₁.Grows w₂ := eq ▸ World.Grows.refl w₁
  -- only objects that the value leads to were changed, and only if storing was what failed
  suffices w₁.Grows w₂ ∨ ∃ c, (p.invoke e (.entity r) []).run w = .ok c w₁ ∧
      w₁.Alters (w₁.Reaches c) w₂ ∧ p.kind.Refuses c stop ∧ ∃ v ∈ args, v.isChange by
    rcases this with grows | ⟨c, read, alters, refused⟩
    · exact ⟨(unchanged grows).1, fun s older plain => .inl ((unchanged grows).2 s older plain)⟩
    · refine ⟨fun s key => alters.slots s key nofun, fun s older plain => ?_⟩
      by_cases reaches : w₁.Reaches c s
      · exact .inr ⟨c, read, reaches, refused⟩
      · exact .inl (alters.others s (fun may => may.elim reaches (Nat.not_le.mpr older)) plain)
  cases args with
  | nil => exact .inl (same (World.after_eq_of_error failed))
  | cons key rest =>
    rw [p.invoke_eq native] at failed
    -- the call reads, evaluates and stores, and fails in one of these
    rcases World.run_bind_error failed with unread | ⟨c, w₁', read, failed⟩
    · exact .inl (same (World.after_eq_of_error unread))
    have here : w₁ = w₁' := World.after_eq_of_ok read
    subst here
    obtain ⟨free, given⟩ := free c w₁ read
    have plain (v : Value) (mem : v ∈ rest) : v.isEntity = false :=
      given v (List.mem_cons_of_mem key mem) v (.self v)
    have effect := evaluate_effect e free key plain native.owner
    rcases World.run_bind_error failed with unevaluated | ⟨outcome, w₃, evaluated, failed⟩
    · rw [unevaluated] at effect
      exact .inl effect
    rw [evaluated] at effect
    obtain ⟨grows, rfl | ⟨v, rfl, refuses⟩⟩ := native.conclude_error failed
    · exact .inl (World.Grows.trans effect grows)
    · rcases effect with grown | ⟨change, alters, dated⟩
      · exact .inl (grown.trans grows)
      · exact .inr ⟨c, read, alters.then_grows grows, refuses.of_dated dated, change⟩

def sequenceOwner (items : Array Value) : World :=
  { World.initial with
    objects := #[.entity ⟨0, Table.ofList [("_x", .seq 1)], []⟩, .seq items] }

theorem sequenceOwner_free {items : Array Value} (flat : ∀ v ∈ items, v.handle? = none) :
    (sequenceOwner items).EntityFree (.seq 1) :=
  .of_held rfl fun r handle item held => by
    cases handle
    exact .scalar (flat item (Array.mem_toList_iff.mp held))

/-- An item has no such method: the call fails two levels down, and the sequence is as it was. -/
theorem unknown_method_changes_nothing :
    let p : Property := ⟨9, .basic (.named "_x") .undefined .identity⟩
    let args : List Value := [.str "0", .str "#nope", .number 1]
    let w := sequenceOwner #[.str "a"]
    let w₁ := w.after (p.invoke (engine 1) (.entity 0) [])
    let w₂ := w.after (p.invoke (engine 1) (.entity 0) args)
    (p.invoke (engine 1) (.entity 0) args).run w = .error (.error (.invalidMethod "nope")) w₂ ∧
      (∀ s key, w₂.slot? s key = w₁.slot? s key) ∧
      ∀ s, s < w₁.objects.size → w₁.typeId? s = none →
        w₂.objects[s]? = w₁.objects[s]? ∨
          ∃ c, (p.invoke (engine 1) (.entity 0) []).run w = .ok c w₁ ∧ w₁.Reaches c s ∧
            p.kind.Refuses c (.error (.invalidMethod "nope")) ∧ ∃ v ∈ args, v.isChange := by
  intro p args w w₁ w₂
  have native : p.kind.Native := .basic _ _ _
  have failed : (p.invoke (engine 1) (.entity 0) args).run w =
      .error (.error (.invalidMethod "nope")) w₂ := rfl
  have free : ∀ c w', (p.invoke (engine 1) (.entity 0) []).run w = .ok c w' →
      w'.EntityFree c ∧ ∀ v ∈ args, w'.EntityFree v := by
    intro c w' ran
    have read : (p.invoke (engine 1) (.entity 0) []).run w = .ok (.seq 1) w := rfl
    have flat : ∀ v ∈ args, v.handle? = none := by simp [args, Value.handle?]
    cases read.symm.trans ran
    exact ⟨sequenceOwner_free (by simp [Value.handle?]), fun v mem => .scalar (flat v mem)⟩
  exact ⟨failed, failed_call_changes_no_more_than_reading native (engine 1) 0 free failed⟩

/-- A typed property of dates finds a sequence in its slot. The last item is taken off, and then
it is refused as no date. -/
theorem popped_before_refused :
    let p : Property := ⟨9, .typed (.named "_x") (.native .date) []⟩
    let args : List Value := [.str "#pop="]
    let w := sequenceOwner #[.str "a", .str "b"]
    let w₁ := w.after (p.invoke (engine 1) (.entity 0) [])
    let w₂ := w.after (p.invoke (engine 1) (.entity 0) args)
    p.kind.Native ∧
      (∀ c w', (p.invoke (engine 1) (.entity 0) []).run w = .ok c w' →
        w'.EntityFree c ∧ ∀ v ∈ args, w'.EntityFree v) ∧
      (p.invoke (engine 1) (.entity 0) args).run w =
        .error (.error (.invalidArguments "not a date: b")) w₂ ∧
      ¬ ∀ s, s < w₁.objects.size → w₁.typeId? s = none → w₂.objects[s]? = w₁.objects[s]? := by
  intro p args w w₁ w₂
  refine ⟨.typed _ _ _, fun c w' ran => ?_, rfl, fun same => ?_⟩
  · have read : (p.invoke (engine 1) (.entity 0) []).run w = .ok (.seq 1) w := rfl
    cases read.symm.trans ran
    have flat : ∀ v ∈ args, v.handle? = none := by simp [args, Value.handle?]
    exact ⟨sequenceOwner_free (by simp [Value.handle?]), fun v mem => .scalar (flat v mem)⟩
  · have before : w₁.objects[1]? = some (.seq #[.str "a", .str "b"]) := rfl
    have after : w₂.objects[1]? = some (.seq #[.str "a"]) := rfl
    have kept := same 1 (by decide) rfl
    rw [before, after] at kept
    cases kept

end Accessors
