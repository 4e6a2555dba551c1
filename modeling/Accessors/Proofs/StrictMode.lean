import Accessors.Proofs.Operations

/-! Strict mode and plain mode. A strict run does what the plain run from the same state
does, up to the first report: there it stops, with that report as its error, when it has
handed over that one report and changed nothing since. Scripts pass on every failure and
cannot reach the strict flag, so this holds however deep calls nest. -/

namespace Accessors

def Channel.inStrictMode (c : Channel) : Channel :=
  { c with strict := true }

def World.inStrictMode (w : World) : World :=
  w.hearing w.channel.inStrictMode w.history

def Ending.inStrictMode {α : Type} : Ending α → Ending α
  | .ok v w => .ok v w.inStrictMode
  | .error stop w => .error stop w.inStrictMode

def Channel.deliverAll (c : Channel) (announced : List (Report × Scene)) : Channel :=
  announced.foldl (fun c a => c.deliver a.1) c

theorem Channel.deliverAll_strict (c : Channel) (announced : List (Report × Scene)) :
    (c.deliverAll announced).strict = c.strict := by
  induction announced generalizing c with
  | nil => rfl
  | cons a rest ih => exact (ih (c.deliver a.1)).trans (c.deliver_strict a.1)

theorem Channel.deliverAll_append (c : Channel) (first second : List (Report × Scene)) :
    c.deliverAll (first ++ second) = (c.deliverAll first).deliverAll second :=
  List.foldl_append

def strictEnding {α : Type} (w : World) (plain : Ending α) :
    List (Report × Scene) → Ending α
  | [] => Ending.inStrictMode plain
  | (report, scene) :: _ =>
    .error (.error (.misuse report))
      ⟨scene, w.channel.inStrictMode.deliver report, w.history.map (· ++ [(report, scene)])⟩

/-- What the plain run of an action from `w` announced, and that the strict run follows. -/
structure Follows {α : Type} (a : Action α) (w : World) (announced : List (Report × Scene)) :
    Prop where
  history : (w.after a).history = w.history.map (· ++ announced)
  channel : (w.after a).channel = w.channel.deliverAll announced
  strict : a.run w.inStrictMode = strictEnding w (a.run w) announced

theorem Ghost.map_append_nil {β : Type} (g : Ghost (List β)) : g.map (· ++ []) = g := by
  obtain ⟨list, rfl⟩ := g.exists_of
  simp [Ghost.map_of]

namespace Follows
variable {α β : Type} {w : World}

theorem of_deaf {a : Action α} (deaf : Deaf a) (w : World) : Follows a w [] := by
  have unheard := deaf.unheard w
  refine ⟨?_, ?_, ?_⟩
  · rw [Ghost.map_append_nil, unheard]
    rfl
  · rw [unheard]
    rfl
  · show a.run (w.hearing _ _) = Ending.inStrictMode (a.run w)
    rw [deaf]
    unfold World.after at unheard
    cases ending : a.run w with
    | ok v w' =>
      rw [ending] at unheard
      change w' = w'.hearing w.channel w.history at unheard
      rw [unheard]
      rfl
    | error stop w' =>
      rw [ending] at unheard
      change w' = w'.hearing w.channel w.history at unheard
      rw [unheard]
      rfl

theorem bind_error {a : Action α} {k : α → Action β} {announced : List (Report × Scene)}
    (first : Follows a w announced) {stop : Stop} {w' : World}
    (ending : a.run w = .error stop w') : Follows (a >>= k) w announced := by
  obtain ⟨history, channel, strict⟩ := first
  unfold World.after at history channel
  rw [ending] at history channel strict
  refine ⟨?_, ?_, ?_⟩
  · rw [World.after_bind, ending]
    exact history
  · rw [World.after_bind, ending]
    exact channel
  · rw [EStateM.run_bind, EStateM.run_bind, strict, ending]
    cases announced <;> rfl

/-- What both parts announce is announced in order; the strict run gets to the second part
only when the first announced nothing. -/
theorem bind_ok {a : Action α} {k : α → Action β} {early late : List (Report × Scene)}
    (first : Follows a w early) {v : α} {w' : World} (ending : a.run w = .ok v w')
    (second : Follows (k v) w' late) : Follows (a >>= k) w (early ++ late) := by
  obtain ⟨history, channel, strict⟩ := first
  unfold World.after at history channel
  rw [ending] at history channel strict
  change w'.history = _ at history
  change w'.channel = _ at channel
  refine ⟨?_, ?_, ?_⟩
  · rw [World.after_bind, ending]
    show (w'.after (k v)).history = _
    rw [second.history, history, Ghost.map_map]
    simp
  · rw [World.after_bind, ending]
    show (w'.after (k v)).channel = _
    rw [second.channel, channel, Channel.deliverAll_append]
  · rw [EStateM.run_bind, EStateM.run_bind, strict, ending]
    cases early with
    | nil =>
      show (k v).run w'.inStrictMode = strictEnding w ((k v).run w') late
      rw [second.strict]
      rw [Ghost.map_append_nil] at history
      change w'.channel = w.channel at channel
      unfold strictEnding
      rw [history, channel]
    | cons _ _ => rfl

end Follows

theorem report_follows (kind : ReportKind) (text : String) {w : World}
    (plain : w.channel.strict = false) :
    Follows (report kind text) w [(⟨kind, text⟩, w.toScene)] := by
  have quiet : (w.channel.deliver ⟨kind, text⟩).strict = false := by
    rw [Channel.deliver_strict, plain]
  have strict : (w.channel.inStrictMode.deliver ⟨kind, text⟩).strict = true :=
    Channel.deliver_strict _ _
  have ran : (report kind text).run w = .ok () (w.announce ⟨kind, text⟩) := by
    show EStateM.run (if (w.channel.deliver ⟨kind, text⟩).strict then _ else _) _ = _
    rw [quiet]
    rfl
  refine ⟨?_, ?_, ?_⟩
  · rw [World.after_eq_of_ok ran]
    rfl
  · rw [World.after_eq_of_ok ran]
    rfl
  · show EStateM.run (if (w.channel.inStrictMode.deliver ⟨kind, text⟩).strict then _ else _) _ = _
    rw [strict]
    rfl

def Followed (ρ : Rules) {α : Type} (a : Action α) : Prop :=
  ∀ w, w.types = ρ.types → w.channel.strict = false →
    (w.after a).types = ρ.types ∧ ∃ announced, Follows a w announced

namespace Followed
variable {ρ : Rules} {α β : Type}

theorem of_deaf {a : Action α} (deaf : Deaf a)
    (types : ∀ w : World, (w.after a).types = w.types) :
    Followed ρ a :=
  fun w same _ => ⟨(types w).trans same, [], .of_deaf deaf w⟩

theorem bind {a : Action α} {k : α → Action β} (ha : Followed ρ a) (hk : ∀ v, Followed ρ (k v)) :
    Followed ρ (a >>= k) := by
  intro w types plain
  obtain ⟨kept, early, followed⟩ := ha w types plain
  cases ending : a.run w with
  | error stop w' =>
    refine ⟨?_, early, followed.bind_error ending⟩
    unfold World.after at kept
    rw [World.after_bind, ending]
    rw [ending] at kept
    exact kept
  | ok v w' =>
    have channel := followed.channel
    rw [World.after_eq_of_ok ending] at kept channel
    have still : w'.channel.strict = false := by
      rw [channel, Channel.deliverAll_strict, plain]
    obtain ⟨kept', late, next⟩ := hk v w' kept still
    refine ⟨?_, early ++ late, followed.bind_ok ending next⟩
    rw [World.after_bind, ending]
    exact kept'

theorem setSlot (r : Ref) (key : StorageKey) (v : Value) : Followed ρ (setSlot r key v) :=
  of_deaf (.modify fun _ _ _ => rfl) fun _ => rfl

theorem note (tie : Tie) : Followed ρ (note tie) :=
  of_deaf (.modify fun _ _ _ => rfl) fun _ => rfl

theorem place {e : Engine} {r : Ref} (key : StorageKey) {v : Value}
    (told : Followed ρ (attachParent e v (.entity r))) : Followed ρ (place e r key v) := by
  cases v with
  | entity n =>
    rw [place_entity]
    exact (setSlot r key _).bind fun _ => (note _).bind fun _ => told.bind fun _ => note _
  | _ => exact setSlot r key _

end Followed

theorem Stepwise.follows {ρ : Rules} {α : Type} {a : Action α} (h : Stepwise ρ a) :
    Followed ρ a := by
  induction h with
  | quiet stays =>
    exact .of_deaf stays.deaf fun w => (stays w (Region.sealed_everything w)).2.after.1.types
  | stop s => exact .of_deaf (.throw s) fun _ => rfl
  | bind first next ihFirst ihNext => exact ihFirst.bind ihNext
  | @look _ k same next ih =>
    intro w types plain
    obtain ⟨kept, announced, followed⟩ := ih w types w types plain
    refine ⟨kept, announced, followed.history, followed.channel, ?_⟩
    have unseen : k w.inStrictMode = k w := same w _ _
    show (k w.inStrictMode).run w.inStrictMode = strictEnding w ((k w).run w) announced
    rw [unseen]
    exact followed.strict
  | create type => exact .of_deaf (.alloc _) fun _ => rfl
  | store r key first admitted next ihFirst ihNext =>
    exact ihFirst.bind fun v => (Followed.setSlot r key v).bind fun _ => ihNext v
  | place _ r key first admitted told next ihFirst ihTold ihNext =>
    exact ihFirst.bind fun v => (Followed.place key (ihTold v)).bind fun _ => ihNext v
  | report kind text =>
    exact fun w types plain => ⟨(Stepwise.report kind text).types types, _,
      report_follows kind text plain⟩

theorem PropertyKind.obeys_anything (kind : PropertyKind) : kind.Obeys fun _ _ _ => True := by
  cases kind with
  | basic _ _ _ | typed _ _ _ => exact fun _ _ => by simp
  | writeOnly side =>
    cases side with
    | slot _ => exact fun _ _ => trivial
    | setter _ => trivial
  | _ => trivial

def Rules.lenient (types : Array EntityType) : Rules where
  types := types
  admits _ _ _ := True
  engines _ := True
  named _ _ _ := trivial
  declared _ _ p _ := p.kind.obeys_anything
  nested _ := trivial

/-- Whatever types are declared, what an engine runs is put together from the steps of the engine.
The functions of a user are of this kind unless they declare types or change the strict flag or
the handler. -/
def Engine.Orderly (e : Engine) : Prop :=
  ∀ types, e.Steps (.lenient types)

theorem engine_orderly (depth : Nat) : (engine depth).Orderly :=
  fun types => engine_steps (.lenient types) depth

theorem Operation.obeys_anything (op : Operation) : op.Obeys fun _ _ _ => True := by
  cases op with
  | invoke p _ _ => exact p.kind.obeys_anything
  | _ => trivial

theorem Engine.Orderly.performWith {e : Engine} (orderly : e.Orderly) (op : Operation)
    (types : Array EntityType) : Stepwise (.lenient types) (op.performWith e) :=
  op.performWith_stepwise (orderly types) op.obeys_anything

/-- Strict mode simulates plain mode. From any state, let an operation run in plain mode and
announce some reports, in order; functions of a user are run by any orderly engine, as those of
scripts are of every depth. When there are no reports, the strict run ends the same way in
the same state. Otherwise it stops with the first of them as its error, in the state the
plain run was in when it announced it, and that report alone has gone to the handler. -/
theorem strict_run_follows_plain {e : Engine} (orderly : e.Orderly) (op : Operation) (w : World)
    (plain : w.channel.strict = false) :
    let perform := op.performWith e
    ∃ announced : List (Report × Scene),
      (w.after perform).history = w.history.map (· ++ announced) ∧
      (w.after perform).channel = w.channel.deliverAll announced ∧
      perform.run w.inStrictMode =
        match announced with
        | [] => Ending.inStrictMode (perform.run w)
        | (report, scene) :: _ =>
          .error (.error (.misuse report))
            ⟨scene, w.channel.inStrictMode.deliver report,
              w.history.map (· ++ [(report, scene)])⟩ := by
  intro perform
  obtain ⟨_, announced, history, channel, strict⟩ :=
    (orderly.performWith op w.types).follows w rfl plain
  refine ⟨announced, history, channel, strict.trans ?_⟩
  cases announced <;> rfl

/-- Reading a write-only property at the start: the plain run announces it and goes on, the
strict run stops with it. -/
theorem strict_read_of_write_only :
    let op := Operation.invoke ⟨9, .writeOnly (.slot (.named "_x"))⟩ .null []
    let w := World.initial
    let report : Report := ⟨.typeError, "Read a write only property"⟩
    w.channel.strict = false ∧
      op.perform.run w = .ok .undefined (w.announce report) ∧
      op.perform.run w.inStrictMode =
        .error (.error (.misuse report))
          ⟨w.toScene, ⟨true, .collect, [report]⟩, .of [(report, w.toScene)]⟩ := by
  intro op w report
  have plain : op.perform.run w = .ok .undefined (w.announce report) := rfl
  refine ⟨rfl, plain, ?_⟩
  obtain ⟨announced, history, _, strict⟩ :=
    strict_run_follows_plain (engine_orderly w.depth) op w rfl
  rw [op.perform_run, show w.inStrictMode.depth = w.depth from rfl]
  rw [op.perform_run] at plain
  rw [World.after_eq_of_ok plain] at history
  have start : w.history = .of [] := rfl
  change w.history.map _ = _ at history
  rw [start, Ghost.map_of, Ghost.map_of] at history
  have one : announced = [(report, w.toScene)] := (Ghost.of_injective history).symm
  rw [strict, one]
  dsimp only
  rw [start, Ghost.map_of]
  rfl

end Accessors
