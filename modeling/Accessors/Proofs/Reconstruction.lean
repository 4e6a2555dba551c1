import Accessors.Proofs.DateProperties
import Accessors.Proofs.Shape
import Accessors.Proofs.WholeNumbers

/-! Native values are normal forms of their types. What a type made of any arguments is made
again of that one value: a scalar as it is, a collection or a date as a new object with the same
content. The exception is an integer that was read from a text of so many digits that it is
infinite, since an infinite number is no integer to the type. Main statement: a value is made
again by its type just when it is no such integer (`made_again_unless_infinite_integer`). -/

namespace Accessors

/-- A value that was made again in a world: a scalar is itself, and a collection or a date is a
new object that holds what the old one does, in the same order and under the same keys. -/
inductive World.Remade (w : World) : Value → Value → World → Prop
  | scalar {v : Value} (bare : v.handle? = none) : Remade w v v w
  | seq {r : Ref} {items : Array Value} (there : w.objects[r]? = some (.seq items)) :
    Remade w (.seq r) (.seq w.objects.size) (w.push (.seq items))
  | record {r : Ref} {fields : Table Value} (there : w.objects[r]? = some (.record fields)) :
    Remade w (.record r) (.record w.objects.size) (w.push (.record fields))
  | date {r : Ref} {moment : Calendar.Moment} (there : w.objects[r]? = some (.date moment)) :
    Remade w (.date r) (.date w.objects.size) (w.push (.date moment))

namespace NativeType

def Remakes (t : NativeType) (w : World) (v : Value) : Prop :=
  ∃ v' w', (t.construct [v]).run w = .ok v' w' ∧ w.Remade v v' w'

section
variable {w : World}

theorem remakes_array {r : Ref} {items : Array Value} (there : w.objects[r]? = some (.seq items)) :
    array.Remakes w (.seq r) := by
  have held : w.items r = items.toList := congrArg Array.toList (World.sequence_of there)
  have run : (array.construct [.seq r]).run w =
      .ok (.seq w.objects.size) (w.push (.seq (w.items r).toArray)) := rfl
  rw [held, Array.toArray_toList] at run
  exact ⟨_, _, run, .seq there⟩

theorem remakes_object {t : NativeType} (taken : t = object ∨ t = plainObject) {r : Ref}
    {fields : Table Value} (there : w.objects[r]? = some (.record fields)) :
    t.Remakes w (.record r) := by
  have held := World.fields_of there
  have run : (t.construct [.record r]).run w =
      .ok (.record w.objects.size) (w.push (.record (w.fields r))) := by
    rcases taken with rfl | rfl <;> rfl
  rw [held] at run
  exact ⟨_, _, run, .record there⟩

theorem remakes_date {r : Ref} {moment : Calendar.Moment}
    (there : w.objects[r]? = some (.date moment)) : date.Remakes w (.date r) := by
  have held : w.moment r = moment := by
    unfold World.moment
    rw [there]
  have run : (date.construct [.date r]).run w =
      .ok (.date w.objects.size) (w.push (.date (w.moment r))) := rfl
  rw [held] at run
  exact ⟨_, _, run, .date there⟩

theorem remakes_scalar {t : NativeType} {v : Value} (bare : v.handle? = none)
    (run : (t.construct [v]).run w = .ok v w) : t.Remakes w v :=
  ⟨v, w, run, .scalar bare⟩

theorem construct_integer_number (n : Float) :
    (integer.construct [.number n]).run w =
      .ok (.number (if Number.isFinite n then Number.truncate n else Number.nan)) w :=
  rfl

theorem construct_integer_str (s : String) :
    (integer.construct [.str s]).run w = .ok (.number (Number.leadingInteger s)) w := by
  have run : (integer.construct [.str s]).run w =
      .ok (.number (Number.leadingInteger (w.display (.str s)))) w := rfl
  rwa [World.display_str] at run

end

end NativeType

open Number

theorem World.leadingInteger_cases (w : World) (v : Value) :
    w.leadingInteger v = nan ∨ isWhole (w.leadingInteger v) = true ∨
      ∃ negative, w.leadingInteger v = infinite negative := by
  cases v with
  | number n =>
    show (if Number.isFinite n then truncate n else nan) = nan ∨
      isWhole (if Number.isFinite n then truncate n else nan) = true ∨ _
    cases finite : Number.isFinite n with
    | true => exact .inr (.inl (isWhole_truncate finite))
    | false => exact .inl rfl
  | _ => exact Number.leadingInteger_cases _

theorem isFinite_nan : Number.isFinite nan = false := by decide +kernel

theorem isFinite_infinite (negative : Bool) : Number.isFinite (infinite negative) = false := by
  cases negative <;> decide +kernel

theorem nan_ne_infinite (negative : Bool) : nan ≠ infinite negative := by
  cases negative <;> decide +kernel

namespace NativeType
variable {w : World}

theorem remakes_integer_iff {n : Float}
    (taken : n = nan ∨ isWhole n = true ∨ ∃ negative, n = infinite negative) :
    integer.Remakes w (.number n) ↔ ¬ ∃ negative, n = infinite negative := by
  have run := construct_integer_number (w := w) n
  rcases taken with rfl | whole | ⟨negative, rfl⟩
  · rw [isFinite_nan, if_neg Bool.false_ne_true] at run
    exact iff_of_true (remakes_scalar rfl run) fun ⟨negative, eq⟩ => nan_ne_infinite negative eq
  · have finite := isFinite_of_isWhole whole
    rw [finite, if_pos rfl, truncate_of_isWhole whole] at run
    refine iff_of_true (remakes_scalar rfl run) ?_
    rintro ⟨negative, rfl⟩
    rw [isFinite_infinite] at finite
    cases finite
  · rw [isFinite_infinite, if_neg Bool.false_ne_true] at run
    refine iff_of_false ?_ fun finite => finite ⟨negative, rfl⟩
    rintro ⟨v, w', again, remade⟩
    cases remade
    have same := (EStateM.Result.ok.inj (run.symm.trans again)).1
    exact nan_ne_infinite negative (Value.number.inj same)

theorem remakes_made_integer_iff {args : List Value} {w' : World} {v : Value}
    (made : (integer.construct args).run w = .ok v w') :
    integer.Remakes w' v ↔ ¬ ∃ negative, v = .number (infinite negative) := by
  cases made
  have taken : (args.head?.map w.leadingInteger).getD nan = nan ∨
      isWhole ((args.head?.map w.leadingInteger).getD nan) = true ∨
      ∃ negative, (args.head?.map w.leadingInteger).getD nan = infinite negative := by
    cases args with
    | nil => exact .inl rfl
    | cons first rest => exact w.leadingInteger_cases first
  simp only [Value.number.injEq]
  exact remakes_integer_iff taken

theorem remakes_made {t : NativeType} (other : t ≠ integer) {args : List Value} {w' : World}
    {v : Value} (made : (t.construct args).run w = .ok v w') : t.Remakes w' v := by
  cases t with
  | integer => exact absurd rfl other
  | string =>
    cases made
    refine remakes_scalar rfl ?_
    show EStateM.Result.ok (Value.str (w.display _)) w = _
    rw [World.display_str]
  | number | double =>
    cases made
    refine remakes_scalar rfl ?_
    show EStateM.Result.ok (Value.number (w.toNumber _)) w = _
    rw [World.toNumber_number]
  | boolean =>
    cases made
    exact remakes_scalar rfl rfl
  | object | plainObject =>
    unfold construct at made
    simp only [EStateM.run_bind, EStateM.run_get] at made
    split at made
    all_goals
      cases made
      exact remakes_object (by decide) ((World.getElem?_push _ _ _).trans (if_pos rfl))
  | array =>
    cases made
    exact remakes_array ((World.getElem?_push _ _ _).trans (if_pos rfl))
  | date =>
    unfold construct at made
    simp only [EStateM.run_bind, EStateM.run_get] at made
    cases taken : w.momentOf args with
    | ok moment =>
      rw [taken] at made
      cases made
      exact remakes_date ((World.getElem?_push _ _ _).trans (if_pos rfl))
    | error error =>
      rw [taken] at made
      cases made

end NativeType

/-- What a native type made of any arguments is made again of itself alone, as the same scalar
or as a new object with the same content, just when it is not an infinite number made as an
integer. -/
theorem made_again_unless_infinite_integer {t : NativeType} {args : List Value} {w w' : World}
    {v : Value} (made : (t.construct args).run w = .ok v w') :
    t.Remakes w' v ↔ ¬ (t = .integer ∧ ∃ negative, v = .number (infinite negative)) := by
  by_cases integer : t = .integer
  · subst integer
    simp only [true_and]
    exact NativeType.remakes_made_integer_iff made
  · exact iff_of_true (NativeType.remakes_made integer made) fun exception =>
      integer exception.1

/-- An integer that does not fit into the significand of a double is rounded, and kept then. -/
theorem rounded_integer_made_again :
    let v : Value := .number (ofNat 9007199254740992)
    (NativeType.integer.construct [.str " 9007199254740993 pounds"]).run World.initial =
        .ok v World.initial ∧
      NativeType.integer.Remakes World.initial v := by
  intro v
  have rounds : leadingInteger " 9007199254740993 pounds" = ofNat 9007199254740992 := by
    decide +kernel
  have made : (NativeType.integer.construct [.str " 9007199254740993 pounds"]).run
      World.initial = .ok v World.initial := by
    rw [NativeType.construct_integer_str, rounds]
  refine ⟨made, (made_again_unless_infinite_integer made).mpr fun ⟨_, negative, eq⟩ => ?_⟩
  have finite : Number.isFinite (ofNat 9007199254740992) = true := by decide +kernel
  rw [Value.number.inj eq, isFinite_infinite] at finite
  cases finite

/-- A text of nines that is too long for a double makes an infinite integer, which the type
makes into no number at all. -/
theorem endless_integer_not_made_again :
    let digits := String.ofList (List.replicate 310 '9')
    (NativeType.integer.construct [.str digits]).run World.initial =
        .ok (.number (infinite false)) World.initial ∧
      (NativeType.integer.construct [.number (infinite false)]).run World.initial =
        .ok (.number nan) World.initial ∧
      ¬ NativeType.integer.Remakes World.initial (.number (infinite false)) := by
  intro digits
  have nines : ∀ c ∈ '9' :: List.replicate 309 '9', isDigit c = true := by
    intro c mem
    obtain rfl := List.eq_of_mem_replicate (show c ∈ List.replicate 310 '9' from mem)
    rfl
  have value : digitsValue ('9' :: List.replicate 309 '9') = 10 ^ 310 - 1 := by decide +kernel
  have endless : leadingInteger digits = infinite false := by
    rw [show leadingInteger digits = _ from leadingInteger_digits nines, value]
    decide +kernel
  have again := NativeType.construct_integer_number (w := World.initial) (infinite false)
  rw [isFinite_infinite, if_neg Bool.false_ne_true] at again
  refine ⟨?_, again, fun remade => ?_⟩
  · rw [NativeType.construct_integer_str, endless]
  · exact (NativeType.remakes_integer_iff (.inr (.inr ⟨false, rfl⟩))).mp remade ⟨false, rfl⟩

end Accessors
