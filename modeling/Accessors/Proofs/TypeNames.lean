import Accessors.Proofs.CamelCase
import Accessors.Proofs.SynthesizerCaches

/-! Type names on the way through a synthesizer. It puts a name into camel case and looks it up in
a registry that does so once more, and nothing but `plainObject` can tell: camel case leaves small
letters alone, and the capital `O` is made of a separator and a letter, either of which the first
round may have made. Main statement: which names a synthesizer takes as the registry does
(`type_names_resolve_unless_twice_separated`). -/

namespace Accessors

section
variable {s back : List Char} {x y c : Char}

def IsLetterO (c : Char) : Prop :=
  c = 'o' ∨ c = 'O'

theorem IsLetterO.upperChar (letter : IsLetterO c) : Text.upperChar c = ['O'] := by
  rcases letter with rfl | rfl <;> decide +kernel

theorem IsLetterO.word (letter : IsLetterO c) : isWordChar c = true := by
  rcases letter with rfl | rfl <;> decide +kernel

theorem IsLetterO.not_separator (letter : IsLetterO c) : isSeparator c = false := by
  rcases letter with rfl | rfl <;> decide

theorem camelChars_separated_letter (small : ∀ d ∈ back, d.isLower = true)
    (sep : isSeparator x = true) (letter : IsLetterO c) :
    camelChars (x :: c :: back) = 'O' :: back := by
  rw [camelChars, if_pos (by simp [sep, letter.word]), letter.upperChar,
    (camelChars_small small).mpr rfl]
  rfl

/-- What a text of a letter `o` and small letters comes from: itself, and for the capital one with
a separator before the letter. -/
theorem camelChars_eq_letter (small : ∀ d ∈ back, d.isLower = true) (letter : IsLetterO c) :
    camelChars s = c :: back ↔
      s = c :: back ∨ c = 'O' ∧ ∃ x d, isSeparator x = true ∧ IsLetterO d ∧ s = x :: d :: back := by
  constructor
  · intro eq
    rcases camelChars_eq_cons eq with
      ⟨rest, rfl, later, _⟩ | ⟨x, d, rest, more, rfl, sep, _, image, eq⟩
    · rw [(camelChars_small small).mp later]
      exact .inl rfl
    · have mem : c ∈ Text.upperChar d := image ▸ List.mem_cons_self
      rcases letter with rfl | rfl
      · exact absurd mem (Text.small_not_mem_upperChar (by decide) d)
      · have letter : IsLetterO d := Text.capital_mem_upperChar mem
        obtain rfl : more = [] := by simpa [letter.upperChar] using image.symm
        rw [(camelChars_small small).mp eq.symm]
        exact .inr ⟨rfl, x, d, sep, letter, rfl⟩
  · rintro (rfl | ⟨rfl, x, d, sep, other, rfl⟩)
    · rw [camelChars_cons_plain letter.not_separator, (camelChars_small small).mpr rfl]
    · exact camelChars_separated_letter small sep other

theorem separator_cases (sep : isSeparator x = true) : x = ' ' ∨ x = '_' ∨ x = '-' := by
  simpa [isSeparator, or_assoc] using sep

theorem separator_word (sep : isSeparator x = true) (word : isWordChar x = true) : x = '_' := by
  rcases separator_cases sep with rfl | rfl | rfl
  · exact absurd word (by decide +kernel)
  · rfl
  · exact absurd word (by decide +kernel)

theorem separator_mem_upperChar (sep : isSeparator x = true) (mem : x ∈ Text.upperChar y)
    (word : isWordChar y = true) : x = '_' ∧ y = '_' := by
  have ascii : x.toNat ≠ 0 ∧ x.toNat < 0x80 ∧ ¬ (0x41 ≤ x.toNat ∧ x.toNat ≤ 0x5a) := by
    rcases separator_cases sep with rfl | rfl | rfl <;> decide
  rcases Text.mem_upperChar_ascii mem ascii.1 ascii.2.1 with ⟨_, rfl⟩ | capital
  · exact ⟨separator_word sep word, separator_word sep word⟩
  · exact absurd capital ascii.2.2

/-- What a text with a separator before the letter comes from: one with two separators there, or
with three, the second of which is an underscore. -/
theorem camelChars_eq_separated (small : ∀ d ∈ back, d.isLower = true) :
    (∃ x c, isSeparator x = true ∧ IsLetterO c ∧ camelChars s = x :: c :: back) ↔
      ∃ x y c, isSeparator x = true ∧ isSeparator y = true ∧ IsLetterO c ∧
        (s = x :: y :: c :: back ∨ s = x :: '_' :: y :: c :: back) := by
  have underscore : Text.upperChar '_' = ['_'] := by decide +kernel
  have consumed {x : Char} {t : List Char} (sep : isSeparator x = true) :
      camelChars (x :: '_' :: t) = '_' :: camelChars t := by
    rw [camelChars, if_pos (by simp [sep, isWordChar]), underscore]
    rfl
  constructor
  · rintro ⟨x, c, sep, letter, eq⟩
    rcases camelChars_eq_cons eq with
      ⟨rest, rfl, later, apart⟩ | ⟨z, y, rest, more, rfl, first, word, image, eq⟩
    · rcases (camelChars_eq_letter small letter).mp later with rfl | ⟨_, y, d, second, other, rfl⟩
      · exact absurd (apart sep c rfl) (by simp [letter.word])
      · exact ⟨x, y, d, sep, second, other, .inl rfl⟩
    · obtain ⟨rfl, rfl⟩ := separator_mem_upperChar sep (image ▸ List.mem_cons_self) word
      obtain rfl : more = [] := by simpa [underscore] using image.symm
      rcases (camelChars_eq_letter small letter).mp eq.symm with rfl | ⟨_, y, d, second, other, rfl⟩
      · exact ⟨z, '_', c, first, rfl, letter, .inl rfl⟩
      · exact ⟨z, y, d, first, second, other, .inr rfl⟩
  · rintro ⟨x, y, c, first, second, letter, rfl | rfl⟩
    · by_cases word : isWordChar y = true
      · obtain rfl := separator_word second word
        refine ⟨'_', c, second, letter, ?_⟩
        rw [consumed first, (camelChars_eq_letter small letter).mpr (.inl rfl)]
      · refine ⟨x, 'O', first, .inr rfl, ?_⟩
        rw [camelChars, if_neg (by simp [word]), camelChars_separated_letter small second letter]
    · refine ⟨'_', 'O', rfl, .inr rfl, ?_⟩
      rw [consumed first, camelChars_separated_letter small second letter]

variable {front : List Char} (smallFront : ∀ d ∈ front, d.isLower = true)
  (smallBack : ∀ d ∈ back, d.isLower = true)
include smallFront smallBack

theorem camelChars_eq_append_separated :
    (∃ x c, isSeparator x = true ∧ IsLetterO c ∧ camelChars s = front ++ x :: c :: back) ↔
      ∃ x y c, isSeparator x = true ∧ isSeparator y = true ∧ IsLetterO c ∧
        (s = front ++ x :: y :: c :: back ∨ s = front ++ x :: '_' :: y :: c :: back) := by
  simp only [camelChars_eq_append smallFront]
  constructor
  · rintro ⟨x, c, sep, letter, rest, rfl, cased⟩
    have forms := (camelChars_eq_separated smallBack).mp ⟨x, c, sep, letter, cased⟩
    simpa using forms
  · rintro ⟨x, y, c, first, second, letter, forms⟩
    obtain ⟨rest, rfl, tails⟩ : ∃ rest, s = front ++ rest ∧
        (rest = x :: y :: c :: back ∨ rest = x :: '_' :: y :: c :: back) := by
      rcases forms with rfl | rfl <;> simp
    obtain ⟨x, c, sep, letter, cased⟩ := (camelChars_eq_separated smallBack).mpr
      ⟨x, y, c, first, second, letter, tails⟩
    exact ⟨x, c, sep, letter, rest, rfl, cased⟩

/-- Camel case again makes a capital `O` of the one that is there, or of a separator and the
letter. -/
theorem camelChars_camelChars :
    camelChars (camelChars s) = front ++ 'O' :: back ↔
      camelChars s = front ++ 'O' :: back ∨
        ∃ x c, isSeparator x = true ∧ IsLetterO c ∧ camelChars s = front ++ x :: c :: back := by
  rw [camelChars_eq_append smallFront]
  constructor
  · rintro ⟨rest, eq, cased⟩
    rcases (camelChars_eq_letter smallBack (.inr rfl)).mp cased with
      rfl | ⟨_, x, c, sep, letter, rfl⟩
    · exact .inl eq
    · exact .inr ⟨x, c, sep, letter, eq⟩
  · rintro (eq | ⟨x, c, sep, letter, eq⟩)
    · exact ⟨_, eq, (camelChars_eq_letter smallBack (.inr rfl)).mpr (.inl rfl)⟩
    · exact ⟨_, eq, camelChars_separated_letter smallBack sep letter⟩

end

/-- The names in which camel case makes a separator and a letter of two or three separators and
the letter, so that camel case again makes `plainObject` of them. -/
def TwiceSeparated (name : String) : Prop :=
  ∃ x y c, isSeparator x = true ∧ isSeparator y = true ∧ IsLetterO c ∧
    (name.toList = "plain".toList ++ x :: y :: c :: "bject".toList ∨
      name.toList = "plain".toList ++ x :: '_' :: y :: c :: "bject".toList)

theorem plain_small : ∀ d ∈ "plain".toList, d.isLower = true :=
  List.all_eq_true.mp (by decide)

theorem bject_small : ∀ d ∈ "bject".toList, d.isLower = true :=
  List.all_eq_true.mp (by decide)

theorem plainObject_toList : "plainObject".toList = "plain".toList ++ 'O' :: "bject".toList := by
  decide

theorem twiceSeparated_iff {name : String} :
    TwiceSeparated name ↔ ∃ x c, isSeparator x = true ∧ IsLetterO c ∧
      (camel name).toList = "plain".toList ++ x :: c :: "bject".toList := by
  simp only [camel, String.toList_ofList]
  exact (camelChars_eq_append_separated plain_small bject_small).symm

theorem camel_camel_eq_plainObject {name : String} :
    camel (camel name) = "plainObject" ↔ camel name = "plainObject" ∨ TwiceSeparated name := by
  rw [twiceSeparated_iff, ← String.toList_inj, ← String.toList_inj, plainObject_toList]
  simp only [camel, String.toList_ofList]
  exact camelChars_camelChars plain_small bject_small

theorem TwiceSeparated.camel_ne {name : String} (twice : TwiceSeparated name) :
    camel name ≠ "plainObject" := by
  obtain ⟨x, c, sep, letter, eq⟩ := twiceSeparated_iff.mp twice
  intro same
  rw [same, plainObject_toList] at eq
  obtain ⟨rfl, _⟩ := List.cons.inj (List.append_cancel_left eq)
  exact absurd sep (by decide)

namespace NativeType

theorem ofName?_eq_some {name : String} {t : NativeType} :
    ofName? name = some t ↔ t.name = name := by
  constructor
  · intro found
    simpa using List.find?_some found
  · rintro rfl
    exact ofName?_name t

theorem small_name {t : NativeType} (other : t ≠ plainObject) :
    ∀ c ∈ t.name.toList, c.isLower = true := by
  refine List.all_eq_true.mp ?_
  cases t <;> first | exact absurd rfl other | decide

theorem ofName?_camel_camel {name : String} {t : NativeType} :
    ofName? (camel (camel name)) = some t ↔
      ofName? (camel name) = some t ∨ t = plainObject ∧ TwiceSeparated name := by
  simp only [ofName?_eq_some, eq_comm (a := t.name)]
  by_cases object : t = plainObject
  · subst object
    rw [show plainObject.name = "plainObject" from rfl, camel_camel_eq_plainObject]
    simp
  · have small := camelChars_small (s := (camel name).toList) (small_name object)
    rw [← String.toList_inj, ← String.toList_inj, camel, String.toList_ofList, small]
    simp [object]

theorem ofName?_camel_of_twiceSeparated {name : String} (twice : TwiceSeparated name) :
    ofName? (camel name) = none := by
  refine Option.eq_none_iff_forall_ne_some.mpr fun t found => ?_
  have first : ofName? (camel (camel name)) = some t := ofName?_camel_camel.mpr (.inl found)
  rw [ofName?_camel_camel.mpr (.inr ⟨rfl, twice⟩)] at first
  cases first
  exact twice.camel_ne (ofName?_eq_some.mp found).symm

end NativeType

namespace Descriptor

/-- The descriptors of a property of the type of a name: the type itself, options with it and
perhaps with a default and a storage name, and the name as a shortcut. -/
inductive OfType (name : String) : Descriptor → Prop
  | type : OfType name (.type (.name name))
  | options {o : Options} (type : o.type = some (.name name)) (get : o.get = none)
      (set : o.set = none) (constant : o.constant = none)
      (var : ∀ key, o.var = some key → checkVarName key = .ok ()) : OfType name (.options o)
  | shortcut (var : name.toList.head? ≠ some '_') (undefined : name ≠ "undefined")
      (null : name ≠ "null") : OfType name (.shortcut name)

/-- What a descriptor is refused with where no type has the name. -/
def unknownType (name : String) : Descriptor → Error
  | shortcut text => .unknownType (text ++ " is neither a var name nor a type name")
  | _ => .unknownType (camel name)

end Descriptor

namespace Synthesizer
variable {s : Synthesizer} {w : World} {name : String}

def MakesTyped (c : Constructor) (ending : Ending Result) : Prop :=
  ∃ p s' w' slot defaults, ending = .ok (.ok p, s') w' ∧ p.kind = .typed slot c defaults

def Refuses (error : Error) (ending : Ending Result) : Prop :=
  ∃ s' w', ending = .ok (.error error, s') w'

def EndsBy (found : Option NativeType) (error : Error) (ending : Ending Result) : Prop :=
  match found with
  | some t => MakesTyped (.native t) ending
  | none => Refuses error ending

variable (h : s.Faithful) {found : Option NativeType}
  (cased : NativeType.ofName? (camel (camel name)) = found)
include h cased

theorem keeping_name (key : StorageKey) (default : Option Value) :
    EndsBy found (.unknownType (camel name))
      ((s.keeping key (some (.name name)) default).run w) := by
  unfold keeping constructorOf
  dsimp only
  rw [(h.camelName name).1, resolve, cased]
  cases found with
  | some t => exact ⟨_, _, _, _, _, rfl, rfl⟩
  | none => exact ⟨_, w, rfl⟩

theorem stored_name (default : Option Value) (var : Option String) :
    EndsBy found (.unknownType (camel name))
      ((s.stored (some (.name name)) default var).run w) := by
  cases var with
  | some key =>
    rw [stored, storageKey, pure_bind]
    exact keeping_name h cased (.named key) default
  | none =>
    have taken : newSlot.run w =
        .ok (.generated w.nextSlot) { w with nextSlot := w.nextSlot + 1 } := rfl
    rw [stored, storageKey, EStateM.run_bind, taken]
    exact keeping_name h cased (.generated w.nextSlot) default

theorem fromOptions_name {o : Options} (type : o.type = some (.name name)) (get : o.get = none)
    (set : o.set = none) (constant : o.constant = none)
    (var : ∀ key, o.var = some key → checkVarName key = .ok ()) :
    EndsBy found (.unknownType (camel name)) ((s.fromOptions o).run w) := by
  have alone : s.fromOptions o =
      s.stored (some (.name name)) (o.default.filter (!·.isUndefined)) o.var := by
    have declared : s.declared o =
        s.stored (some (.name name)) (o.default.filter (!·.isUndefined)) o.var := by
      simp [declared, constant, get, set, type]
    have passed : o.var.elim (.ok ()) checkVarName = .ok () := by
      cases named : o.var with
      | none => rfl
      | some key => exact var key named
    unfold fromOptions
    rw [declared, passed]
    rfl
  rw [alone]
  exact stored_name h cased _ _

omit cased in
/-- A shortcut that is no storage name is looked up by its camel case, and that is put into camel
case again. -/
theorem shortcutOptions_name (var : name.toList.head? ≠ some '_') :
    s.shortcutOptions name =
      (if (NativeType.ofName? (camel (camel name))).isSome then
          .ok { Options.none with type := some (.name name) }
        else .error (.unknownType (name ++ " is neither a var name nor a type name")),
        (s.camelName name).2) := by
  unfold shortcutOptions
  rw [if_neg var]
  dsimp only
  rw [(h.camelName name).1, isRegistered]
  split <;> rfl

theorem synthesize_ofType {d : Descriptor} (typed : d.OfType name) :
    EndsBy found (d.unknownType name) ((s.synthesize d).run w) := by
  cases typed with
  | type =>
    exact fromOptions_name (o := { Options.none with type := some (.name name) }) h cased
      rfl rfl rfl rfl nofun
  | options type get set constant var =>
    exact fromOptions_name h cased type get set constant var
  | shortcut var undefined null =>
    have looked : s.synthesize (.shortcut name) =
        (s.shortcutOptions name).2.checked (s.shortcutOptions name).1
          (s.shortcutOptions name).2.fromOptions := by
      unfold synthesize
      split <;> simp_all
    rw [looked, shortcutOptions_name h var, cased]
    cases found with
    | none => exact ⟨_, w, rfl⟩
    | some t =>
      rw [Option.isSome_some, if_pos rfl]
      exact fromOptions_name (o := { Options.none with type := some (.name name) })
        (h.camelName name).2 cased rfl rfl rfl rfl nofun

end Synthesizer

/-- At any time in a history of a synthesizer, a descriptor of the type of a name makes a property
of just the type that the registry has for the name, and is refused where it has none, exactly when
the name is not twice separated. A twice separated name is in no registry, and yet a synthesizer
takes it for `plainObject`. -/
theorem type_names_resolve_unless_twice_separated {w : World} {s : Synthesizer}
    {attempts : List Attempt} (history : Synthesis w s attempts) {name : String} {d : Descriptor}
    (typed : d.OfType name) :
    let ending := (s.synthesize d).run w
    ((isRegistered name = true ∧ ∃ c, resolve name = .ok c ∧ Synthesizer.MakesTyped c ending) ∨
        (isRegistered name = false ∧ Synthesizer.Refuses (d.unknownType name) ending) ↔
      ¬ TwiceSeparated name) ∧
    (TwiceSeparated name →
      isRegistered name = false ∧ Synthesizer.MakesTyped (.native .plainObject) ending) := by
  intro ending
  have faithful := history.invariant.settled.faithful
  have ends {found : Option NativeType}
      (cased : NativeType.ofName? (camel (camel name)) = found) :
      Synthesizer.EndsBy found (d.unknownType name) ending :=
    Synthesizer.synthesize_ofType faithful cased typed
  have mistaken (twice : TwiceSeparated name) :
      isRegistered name = false ∧ Synthesizer.MakesTyped (.native .plainObject) ending :=
    ⟨by simp [isRegistered, NativeType.ofName?_camel_of_twiceSeparated twice],
      ends (NativeType.ofName?_camel_camel.mpr (.inr ⟨rfl, twice⟩))⟩
  refine ⟨⟨?_, fun once => ?_⟩, mistaken⟩
  · rintro alike twice
    obtain ⟨unregistered, _, _, _, _, _, made, _⟩ := mistaken twice
    rcases alike with ⟨registered, _⟩ | ⟨_, _, _, refused⟩
    · simp [registered] at unregistered
    · rw [made] at refused
      cases refused
  · have same : NativeType.ofName? (camel (camel name)) = NativeType.ofName? (camel name) :=
      Option.ext fun t => by simp [NativeType.ofName?_camel_camel, once]
    have ended := ends same
    unfold isRegistered resolve
    cases found : NativeType.ofName? (camel name) with
    | some t =>
      rw [found] at ended
      exact .inl ⟨rfl, _, rfl, ended⟩
    | none =>
      rw [found] at ended
      exact .inr ⟨rfl, ended⟩

/-- The shortcut `plain_object` makes a property of plain objects. -/
theorem plain_object_taken :
    let ending := (Synthesizer.initial.synthesize (.shortcut "plain_object")).run .initial
    isRegistered "plain_object" = true ∧
      ∃ c, resolve "plain_object" = .ok c ∧ Synthesizer.MakesTyped c ending := by
  intro ending
  have registered : isRegistered "plain_object" = true := by decide +kernel
  have once : ¬ TwiceSeparated "plain_object" := fun twice =>
    twice.camel_ne (by decide +kernel)
  have typed : Descriptor.OfType "plain_object" (.shortcut "plain_object") :=
    .shortcut (by decide) (by decide) (by decide)
  rcases (type_names_resolve_unless_twice_separated (.start .initial) typed).1.mpr once with
    made | ⟨unregistered, _⟩
  · exact made
  · simp [registered] at unregistered

/-- No type has the name `plain__object`, and yet a property of it is made, of plain objects. -/
theorem doubled_separator_taken :
    let ending := (Synthesizer.initial.synthesize (.type (.name "plain__object"))).run .initial
    isRegistered "plain__object" = false ∧
      resolve "plain__object" = .error (.unknownType "plain__object") ∧
      Synthesizer.MakesTyped (.native .plainObject) ending ∧
      ∀ text, ¬ Synthesizer.Refuses (.unknownType text) ending := by
  intro ending
  have unnamed : NativeType.ofName? (camel "plain__object") = none := by decide +kernel
  have cased : NativeType.ofName? (camel (camel "plain__object")) = some .plainObject := by
    decide +kernel
  have made : Synthesizer.MakesTyped (.native .plainObject) ending :=
    Synthesizer.synthesize_ofType .initial cased .type
  refine ⟨by simp [isRegistered, unnamed], by simp [resolve, unnamed], made, fun text refused => ?_⟩
  obtain ⟨_, _, _, _, _, made, _⟩ := made
  obtain ⟨_, _, refused⟩ := refused
  rw [made] at refused
  cases refused

end Accessors
