import Accessors.Proofs.Forwarding
import Accessors.Proofs.InstructionGrammar
import Accessors.Proofs.Resolution

/-! Declared members. A declaration counts a name as declared twice whether it comes back as a
property or as a method, and then builds no type; so in a type that was built a name is a property
or a method and never both. A call by name asks for the property first and a method instruction
for the method first, and yet the two find the same member. -/

namespace Accessors

theorem Table.entries_insert_new {α : Type} {t : Table α} {name : String}
    (new : t.has name = false) (a : α) :
    (t.insert name a).entries = t.entries ++ [(name, a)] := by
  have absent : t.entries.lookup name = none := by
    rw [← t.get?_eq]
    simpa [has] using new
  rw [entries_insert, insertEntry_of_absent]
  refine List.findIdx?_eq_none_iff.mpr fun entry mem => beq_false_of_ne fun same => ?_
  rw [← t.get?_eq, ← same, t.get?_of_mem mem] at absent
  cases absent

namespace Member

def name? : Member → Option String
  | property name _ | method name _ => some name
  | override _ _ | initializer _ | serializer _ => none

def property? : Member → Option (String × Property)
  | property name p => some (name, p)
  | _ => none

def method? : Member → Option (String × Script)
  | method name body => some (name, body)
  | _ => none

def names (members : List Member) : List String :=
  members.filterMap name?

end Member

namespace Declaration
variable {d : Declaration} {members : List Member}

structure Lists (d : Declaration) (members : List Member) : Prop where
  declares : ∀ name, d.type.declares name = true ↔ name ∈ Member.names members
  unique : d.duplicates = [] ↔ (Member.names members).Nodup
  properties : d.duplicates = [] →
    d.type.properties.entries = members.filterMap Member.property?
  methods : d.duplicates = [] → d.type.methods.entries = members.filterMap Member.method?
  apart : d.duplicates = [] → ∀ name,
    ¬ (d.type.properties.has name = true ∧ d.type.methods.has name = true)

theorem Lists.start (name : String) : (Declaration.start name).Lists [] where
  declares _ := iff_of_false Bool.false_ne_true List.not_mem_nil
  unique := iff_of_true rfl .nil
  properties _ := rfl
  methods _ := rfl
  apart _ _ both := Bool.false_ne_true both.1

theorem declares_iff {t : EntityType} {name : String} :
    t.declares name = true ↔ t.properties.has name = true ∨ t.methods.has name = true := by
  simp [EntityType.declares]

theorem noteName_eq_nil {name : String} :
    d.noteName name = [] ↔ d.duplicates = [] ∧ d.type.properties.has name = false ∧
      d.type.methods.has name = false := by
  unfold noteName
  cases declared : d.type.declares name with
  | true =>
    have either := declares_iff.mp declared
    simp only [if_true, List.append_eq_nil_iff, List.cons_ne_nil, and_false, false_iff]
    rintro ⟨_, noProperty, noMethod⟩
    simp [noProperty, noMethod] at either
  | false =>
    have neither : d.type.properties.has name = false ∧ d.type.methods.has name = false := by
      simpa [EntityType.declares] using declared
    simp [neither]

theorem names_append (m : Member) :
    Member.names (members ++ [m]) = Member.names members ++ m.name?.toList := by
  cases named : m.name? <;> simp [Member.names, named]

theorem Lists.unique_next (h : d.Lists members) {m : Member} {name : String}
    (named : m.name? = some name) :
    d.noteName name = [] ↔ (Member.names (members ++ [m])).Nodup := by
  have new : (d.type.properties.has name = false ∧ d.type.methods.has name = false) ↔
      name ∉ Member.names members := by
    rw [← h.declares, declares_iff]
    simp
  rw [names_append, named, Option.toList_some, List.perm_append_singleton _ _ |>.nodup_iff,
    List.nodup_cons, ← h.unique, ← new, noteName_eq_nil, and_comm]

theorem Lists.add_property (h : d.Lists members) (name : String) (p : Property) :
    (d.add (.property name p)).Lists (members ++ [.property name p]) where
  declares other := by
    rw [declares_iff, names_append, List.mem_append, ← h.declares, declares_iff]
    simp [Declaration.add, Table.has_insert, Member.name?, or_assoc, or_comm]
  unique := h.unique_next rfl
  properties none := by
    obtain ⟨none, new, _⟩ := noteName_eq_nil.mp none
    simp [Declaration.add, Table.entries_insert_new new, h.properties none, Member.property?]
  methods none := by
    obtain ⟨none, _⟩ := noteName_eq_nil.mp none
    simp [Declaration.add, h.methods none, Member.method?]
  apart none other := by
    obtain ⟨none, _, new⟩ := noteName_eq_nil.mp none
    rintro ⟨property, method⟩
    change d.type.methods.has other = true at method
    rcases Bool.or_eq_true_iff.mp ((Table.has_insert _ _ _ _).symm.trans property) with same | earlier
    · rw [of_decide_eq_true same, new] at method
      cases method
    · exact h.apart none other ⟨earlier, method⟩

theorem Lists.add_method (h : d.Lists members) (name : String) (body : Script) :
    (d.add (.method name body)).Lists (members ++ [.method name body]) where
  declares other := by
    rw [declares_iff, names_append, List.mem_append, ← h.declares, declares_iff]
    simp [Declaration.add, Table.has_insert, Member.name?, or_comm, or_left_comm]
  unique := h.unique_next rfl
  properties none := by
    obtain ⟨none, _⟩ := noteName_eq_nil.mp none
    simp [Declaration.add, h.properties none, Member.property?]
  methods none := by
    obtain ⟨none, _, new⟩ := noteName_eq_nil.mp none
    simp [Declaration.add, Table.entries_insert_new new, h.methods none, Member.method?]
  apart none other := by
    obtain ⟨none, new, _⟩ := noteName_eq_nil.mp none
    rintro ⟨property, method⟩
    change d.type.properties.has other = true at property
    rcases Bool.or_eq_true_iff.mp ((Table.has_insert _ _ _ _).symm.trans method) with same | earlier
    · rw [of_decide_eq_true same, new] at property
      cases property
    · exact h.apart none other ⟨property, earlier⟩

theorem Lists.add_unnamed (h : d.Lists members) {m : Member} (unnamed : m.name? = none)
    (properties : (d.add m).type.properties = d.type.properties)
    (methods : (d.add m).type.methods = d.type.methods)
    (duplicates : (d.add m).duplicates = d.duplicates) :
    (d.add m).Lists (members ++ [m]) := by
  have names : Member.names (members ++ [m]) = Member.names members := by
    rw [names_append, unnamed]
    exact List.append_nil _
  have apart : m.property? = none ∧ m.method? = none := by
    cases m <;> first | exact ⟨rfl, rfl⟩ | cases unnamed
  refine ⟨fun name => ?_, ?_, ?_, ?_, ?_⟩
  · rw [names, ← h.declares, declares_iff, declares_iff, properties, methods]
  · rw [names, duplicates, h.unique]
  · rw [duplicates, properties]
    simpa [apart.1] using h.properties
  · rw [duplicates, methods]
    simpa [apart.2] using h.methods
  · rw [duplicates, properties, methods]
    exact h.apart

theorem Lists.add (h : d.Lists members) (m : Member) : (d.add m).Lists (members ++ [m]) := by
  cases m with
  | property name p => exact h.add_property name p
  | method name body => exact h.add_method name body
  | override op body => exact h.add_unnamed rfl rfl rfl rfl
  | initializer body => exact h.add_unnamed rfl rfl rfl rfl
  | serializer s => exact h.add_unnamed rfl rfl rfl rfl

theorem Lists.addAll (h : d.Lists members) (rest : List Member) :
    (d.addAll rest).Lists (members ++ rest) := by
  induction rest generalizing d members with
  | nil =>
    rw [List.append_nil]
    exact h
  | cons m rest ih =>
    rw [List.append_cons]
    exact ih (h.add m)

theorem build_eq_ok {t : EntityType} : d.build = .ok t ↔ d.duplicates = [] ∧ d.type = t := by
  unfold build
  split <;> simp_all

end Declaration

section
variable {r : Ref} {w : World} {name : String}

theorem parse_named (cased : camel name = name) (single : name.toList.head? ≠ some '#')
    (unmarked : name.toList.getLast? ≠ some '=') :
    Instruction.parse ("#" ++ name) = .method name false := by
  refine Instruction.parse_eq_iff.mpr ⟨name, name, rfl, single, ?_, ?_, cased.symm⟩
  · simp [mark]
  · simp [unmarked]

theorem callMember_method (e : Engine) {body : Script}
    (noProperty : (w.typeOf r).property? name = none)
    (found : (w.typeOf r).method? name = some body) (args : List Value) :
    (callMember e (.entity r) name args).run w = (e.run body (.entity r) args).run w := by
  unfold callMember
  rw [EStateM.run_bind, EStateM.run_get]
  simp only [noProperty, found]

/-- What a method instruction finds under a declared name is found by a call by that name too,
unless the name is declared as both. -/
theorem Callee.call_declared (e : Engine) (declared : (w.typeOf r).declares name = true)
    (apart : ¬ ((w.typeOf r).properties.has name = true ∧ (w.typeOf r).methods.has name = true))
    (args : List Value) :
    (Callee.call e (.entity r) name args (w.callee? (.entity r) none name)).run w =
      (callMember e (.entity r) name args).run w := by
  rcases Declaration.declares_iff.mp declared with isProperty | isMethod
  · obtain ⟨p, found⟩ : ∃ p, (w.typeOf r).property? name = some p :=
      Option.isSome_iff_exists.mp isProperty
    have noMethod : (w.typeOf r).method? name = none :=
      Option.not_isSome_iff_eq_none.mp fun isMethod => apart ⟨isProperty, isMethod⟩
    have stands : w.callee? (.entity r) none name = some (.property p) := by
      simp [World.callee?_none, World.ownMember?, World.declared?, World.ownMethod?, noMethod, found]
    rw [stands, callMember_property e found]
    rfl
  · obtain ⟨body, found⟩ : ∃ body, (w.typeOf r).method? name = some body :=
      Option.isSome_iff_exists.mp isMethod
    have noProperty : (w.typeOf r).property? name = none :=
      Option.not_isSome_iff_eq_none.mp fun isProperty => apart ⟨isProperty, isMethod⟩
    have stands : w.callee? (.entity r) none name = some (.script body) := by
      simp [World.callee?_none, World.ownMember?, World.declared?, World.ownMethod?, found]
    rw [stands, callMember_method e noProperty found]
    rfl

end

/-- A declaration builds a type just when its properties and methods all have different names.
The type then lists the properties, and the methods, as they were declared, and no name is both.
So on its instances a method instruction without an owner finds what a call by name finds, for
every declared name that the instruction can spell: it has the effects and the error of the call,
and reads what the call returns. -/
theorem declared_members_unique (name : String) (members : List Member) :
    let d := (Declaration.start name).addAll members
    ((∃ t, d.build = .ok t) ↔ (Member.names members).Nodup) ∧
    ∀ t, d.build = .ok t →
      t.properties.entries = members.filterMap Member.property? ∧
      t.methods.entries = members.filterMap Member.method? ∧
      (∀ member, ¬ (t.properties.has member = true ∧ t.methods.has member = true)) ∧
      ∀ (e : Engine) (w : World) (r : Ref) (member : String) (args : List Value),
        w.typeOf r = t → member ∈ Member.names members → camel member = member →
        member.toList.head? ≠ some '#' → member.toList.getLast? ≠ some '=' → member ≠ "new" →
        (evaluate e (.entity r) (.str ("#" ++ member)) args none).run w =
          (callMember e (.entity r) member args >>= fun v => pure (Outcome.read v)).run w := by
  intro d
  have lists : d.Lists members := (Declaration.Lists.start name).addAll members
  refine ⟨?_, fun t built => ?_⟩
  · rw [← lists.unique]
    simp [Declaration.build_eq_ok]
  obtain ⟨none, rfl⟩ := Declaration.build_eq_ok.mp built
  refine ⟨lists.properties none, lists.methods none, lists.apart none, ?_⟩
  intro e w r member args here declared cased single unmarked named
  have called := Callee.call_declared (w := w) (r := r) e
    (here ▸ (lists.declares member).mpr declared) (here ▸ lists.apart none member) args
  rw [evaluate_method_run e rfl (parse_named cased single unmarked) named, EStateM.run_bind,
    EStateM.run_bind, called]
  rfl

def noteMembers : List Member :=
  [.property "pitch" ⟨9, .constant (.str "c")⟩, .initializer .this, .method "shift" (.argument 0)]

def declaredNote : World :=
  { World.initial with
    types := #[((Declaration.start "Note").addAll noteMembers).type]
    objects := #[.entity ⟨0, .empty, []⟩] }

/-- The note's pitch is read and its method is called by instructions, and it lists the pitch
alone; with a method named as the property nothing is built. -/
theorem note_members_found :
    let run (key : String) (args : List Value) :=
      (evaluate (engine 1) (.entity 0) (.str key) args none).run declaredNote
    run "#pitch" [] = .ok (.read (.str "c")) declaredNote ∧
      run "#shift" [.bool true] = .ok (.read (.bool true)) declaredNote ∧
      (declaredNote.typeOf 0).properties.entries = [("pitch", ⟨9, .constant (.str "c")⟩)] ∧
      ¬ ∃ t, ((Declaration.start "Note").addAll (noteMembers ++ [.method "pitch" .this])).build =
        .ok t := by
  intro run
  obtain ⟨unique, built⟩ := declared_members_unique "Note" noteMembers
  have distinct : (Member.names noteMembers).Nodup := by decide
  obtain ⟨t, ok⟩ := unique.mpr distinct
  have here : declaredNote.typeOf 0 = t := (Declaration.build_eq_ok.mp ok).2
  obtain ⟨properties, -, -, agree⟩ := built t ok
  have pitch := agree (engine 1) declaredNote 0 "pitch" [] here (by decide) (by decide) (by decide)
    (by decide) (by decide)
  have shift := agree (engine 1) declaredNote 0 "shift" [.bool true] here (by decide) (by decide)
    (by decide) (by decide) (by decide)
  have twice := declared_members_unique "Note" (noteMembers ++ [.method "pitch" .this])
  refine ⟨pitch.trans rfl, shift.trans rfl, here ▸ properties, fun ok => ?_⟩
  exact absurd (twice.1.mp ok) (by decide)

end Accessors
