import Accessors.Proofs.DateParts

/-! The properties of dates, through doubles. The seven parts and the milliseconds of a date are
small integers, which doubles hold exactly. Main statements: rebuilding a date from its parts
gives what its time gives (`date_decompositions_agree`), and setting one part of a date to a
value that it can have there changes that part and no other (`setting_part_keeps_others`). -/

namespace Accessors
open Calendar Number

namespace Calendar

namespace Parts
variable {α β : Type}

theorem ext_get {p q : Parts α} (same : ∀ part, p.get part = q.get part) : p = q := by
  obtain ⟨y, mo, d, h, mi, s, ms⟩ := p
  obtain ⟨y', mo', d', h', mi', s', ms'⟩ := q
  obtain rfl : y = y' := same .year
  obtain rfl : mo = mo' := same .month
  obtain rfl : d = d' := same .day
  obtain rfl : h = h' := same .hour
  obtain rfl : mi = mi' := same .minute
  obtain rfl : s = s' := same .second
  obtain rfl : ms = ms' := same .millisecond
  rfl

theorem get_map (f : α → β) (p : Parts α) (part : Part) : (p.map f).get part = f (p.get part) := by
  cases part <;> rfl

theorem map_set (f : α → β) (p : Parts α) (part : Part) (a : α) :
    (p.map f).set part (f a) = (p.set part a).map f := by
  cases part <;> rfl

theorem all_toList {p : Parts α} {f : α → Bool} (each : ∀ part, f (p.get part) = true) :
    p.toList.all f = true := by
  refine List.all_eq_true.mpr fun a mem => ?_
  obtain ⟨part, rfl⟩ : ∃ part, p.get part = a := by
    simp only [toList, List.mem_cons, List.not_mem_nil, or_false] at mem
    rcases mem with eq | eq | eq | eq | eq | eq | eq
    · exact ⟨.year, eq.symm⟩
    · exact ⟨.month, eq.symm⟩
    · exact ⟨.day, eq.symm⟩
    · exact ⟨.hour, eq.symm⟩
    · exact ⟨.minute, eq.symm⟩
    · exact ⟨.second, eq.symm⟩
    · exact ⟨.millisecond, eq.symm⟩
  exact each part

end Parts

theorem Parts.OnCalendar.get_range {p : Parts Int} (h : p.OnCalendar) (part : Part) :
    -262143 ≤ p.get part ∧ p.get part ≤ 262142 := by
  have year := h.year_range
  have month_lt := h.date.month_lt
  have most := h.date.day_le_31
  obtain ⟨month, day, _, _, hour, minute, second, millisecond⟩ := h
  cases part <;> simp only [Parts.get] <;> omega

theorem Parts.OnCalendar.safe {p : Parts Int} (h : p.OnCalendar) (part : Part) :
    (p.get part).natAbs ≤ greatestSafe := by
  have range := h.get_range part
  unfold greatestSafe
  omega

theorem Moment.millis_safe (m : Moment) : m.millis.natAbs ≤ greatestSafe := by
  obtain ⟨day, second, nano, day_range, second_lt, nano_lt⟩ := m
  unfold Moment.millis greatestSafe
  unfold firstDay lastDay at day_range
  dsimp only
  omega

end Calendar

theorem momentOfParts_ofInt {p : Parts Int} (safe : ∀ part, (p.get part).natAbs ≤ greatestSafe) :
    momentOfParts (p.map ofInt) = Moment.ofParts p := by
  have finite : (p.map ofInt).toList.all Number.isFinite = true := by
    refine Parts.all_toList fun part => ?_
    rw [Parts.get_map, isFinite_ofInt (safe part)]
  have cast : (p.map ofInt).map Number.toInt64 = p := by
    refine Parts.ext_get fun part => ?_
    rw [Parts.get_map, Parts.get_map, toInt64_ofInt (safe part)]
  unfold momentOfParts
  rw [if_pos finite, cast]

theorem momentOfMillis?_ofInt {n : Int} (safe : n.natAbs ≤ greatestSafe) :
    momentOfMillis? (ofInt n) = Moment.ofMillis? n := by
  unfold momentOfMillis?
  rw [if_pos (isFinite_ofInt safe), toInt64_ofInt safe]

theorem momentOfParts_parts (m : Moment) :
    (momentOfParts (m.parts.map ofInt)).result =
      orRefused (momentOfMillis? (ofInt m.millis)) := by
  rw [momentOfParts_ofInt m.parts_onCalendar.safe, momentOfMillis?_ofInt m.millis_safe,
    m.ofParts_parts]

theorem ofInt_add_partBase {p : Parts Int} (h : p.OnCalendar) (part : Part) :
    ofInt (p.get part) + partBase part = ofInt (p.get part + part.origin) := by
  have safe := h.safe part
  cases part with
  | month =>
    have months : ∀ k : Fin 12, ofInt (k.val : Int) + 1 = ofInt ((k.val : Int) + 1) := by
      decide +kernel
    have start := h.month
    have shown := months ⟨p.month.toNat, h.date.month_lt⟩
    dsimp only at shown
    rw [Int.toNat_of_nonneg start] at shown
    exact shown
  | _ => exact (ofInt_add_zero safe).trans (congrArg ofInt (Int.add_zero _).symm)

theorem ofInt_sub_partBase {v : Int} {part : Part}
    (month : part = .month → 1 ≤ v ∧ v ≤ 12) :
    ofInt v - partBase part = ofInt (v - part.origin) := by
  cases part with
  | month =>
    have months : ∀ k : Fin 12, ofInt ((k.val : Int) + 1) - 1 = ofInt (k.val : Int) := by
      decide +kernel
    obtain ⟨first, last⟩ := month rfl
    have taken := months ⟨(v - 1).toNat, by omega⟩
    dsimp only at taken
    rw [Int.toNat_of_nonneg (by omega), Int.sub_add_cancel] at taken
    exact taken
  | _ => exact (minus_zero _).trans (congrArg ofInt (Int.sub_zero v).symm)

theorem World.toNumber_number (w : World) (x : Float) : w.toNumber (.number x) = x := by
  unfold toNumber toNumberWithin
  rfl

theorem dateBehavior_entries :
    dateBehavior.properties.entries =
      DateField.named.zipIdx.map fun entry => (entry.1.1, entry.1.2.property entry.2) :=
  Table.entries_ofList (by decide)

theorem dateBehavior_part (part : Part) :
    ∃ id, dateBehavior.property? part.name = some (DateField.property id (.part part)) := by
  unfold EntityType.property?
  rw [Table.get?_eq, dateBehavior_entries]
  cases part <;> exact ⟨_, rfl⟩

theorem dateBehavior_time :
    ∃ id, dateBehavior.property? "time" = some (DateField.property id .time) := by
  unfold EntityType.property?
  rw [Table.get?_eq, dateBehavior_entries]
  exact ⟨_, rfl⟩

section
variable (id : Nat) (part : Part) (w : World) (r : Ref)

theorem read_part :
    (Operation.invoke (DateField.property id (.part part)) (.date r) []).perform.run w =
    .ok (.number (ofInt ((w.moment r).parts.get part + part.origin))) w := by
  rw [← ofInt_add_partBase (w.moment r).parts_onCalendar]
  rfl

theorem run_rebuild (made : World → Ref → Except Stop Moment) :
    (do let r ← ofExcept (dateHandle (.date r))
        let w ← get
        let moment ← attempt (made w r)
        setMoment r moment : Action Unit).run w = (attempt (made w r) >>= setMoment r).run w :=
  rfl

theorem write_part_run (value : Value) :
    ((DateField.part part).write (.date r) value).run w =
      (attempt (orInvalid ("date component out of range: " ++ w.display value)
        (momentOfParts (((w.moment r).parts.map ofInt).set part
          (w.toNumber value - partBase part))).result) >>= setMoment r).run w := by
  unfold DateField.write
  dsimp only
  -- A plain rfl takes minutes here: it computes with the parts before it compares them.
  exact run_rebuild w r _

theorem invoke_part_number (x : Float) :
    (Operation.invoke (DateField.property id (.part part)) (.date r) [.number x]).perform.run w =
      ((DateField.part part).write (.date r) (.number x) >>= fun _ => pure (.date r)).run w :=
  rfl

end

theorem write_part {w : World} {r : Ref} {m m' : Moment} {part : Part} {x : Float} (id : Nat)
    (dated : w.objects[r]? = some (.date m))
    (rebuilt : (momentOfParts ((m.parts.map ofInt).set part (x - partBase part))).result =
      .ok m') :
    (Operation.invoke (DateField.property id (.part part)) (.date r) [.number x]).perform.run w =
      .ok (.date r) (w.update r fun _ => .date m') := by
  have before : w.moment r = m := by
    unfold World.moment
    rw [dated]
  have written : ((DateField.part part).write (.date r) (.number x)).run w =
      .ok () (w.update r fun _ => .date m') := by
    rw [write_part_run, World.toNumber_number, before, rebuilt]
    exact congrArg (EStateM.Result.ok ()) (World.update_eq dated _)
  rw [invoke_part_number, EStateM.run_bind, written]
  rfl

/-- The two decompositions of a date agree: its parts rebuild what the value of its time stands
for, leap seconds and fractions of milliseconds included; and a whole number of milliseconds that
is no leap second is rebuilt as it was. -/
theorem date_decompositions_agree (w : World) (r : Ref) :
    ∃ time n, dateBehavior.property? "time" = some time ∧
      (Operation.invoke time (.date r) []).perform.run w = .ok (.number n) w ∧
      (momentOfParts ((w.moment r).parts.map ofInt)).result = orRefused (momentOfMillis? n) ∧
      ((w.moment r).IsWhole → momentOfMillis? n = some (w.moment r)) := by
  obtain ⟨id, found⟩ := dateBehavior_time
  refine ⟨_, ofInt (w.moment r).millis, found, rfl, momentOfParts_parts _, fun whole => ?_⟩
  rw [momentOfMillis?_ofInt (w.moment r).millis_safe, whole.ofMillis?_millis]

/-- Setting a part of a date is a lens. A date that is given, for one of its parts, a value that
makes up a date and time of the calendar with the other parts gives itself back, then shows that
value for the part, and shows every other part as before. -/
theorem setting_part_keeps_others {w : World} {r : Ref} {m : Moment} {part : Part} {v : Int}
    (dated : w.objects[r]? = some (.date m))
    (valid : (m.parts.set part (v - part.origin)).Valid) :
    let invoke (p : Property) (args : List Value) : Action Value :=
      (Operation.invoke p (.date r) args).perform
    ∃ p w', dateBehavior.property? part.name = some p ∧
      (invoke p [.number (ofInt v)]).run w = .ok (.date r) w' ∧
      (invoke p []).run w' = .ok (.number (ofInt v)) w' ∧
      (∀ other, other ≠ part → ∃ q n, dateBehavior.property? other.name = some q ∧
        (invoke q []).run w = .ok (.number n) w ∧ (invoke q []).run w' = .ok (.number n) w') ∧
      ∃ m', w' = w.update r (fun _ => .date m') ∧ m'.IsWhole ∧
        m'.parts = m.parts.set part (v - part.origin) := by
  intro invoke
  obtain ⟨id, found⟩ := dateBehavior_part part
  have before : w.moment r = m := by
    unfold World.moment
    rw [dated]
  have month (eq : part = .month) : 1 ≤ v ∧ v ≤ 12 := by
    subst eq
    have start := valid.month
    have lt := valid.date.month_lt
    change 0 ≤ v - 1 at start
    change (v - 1).toNat < 12 at lt
    omega
  -- What is given, counted from the part's origin, takes the place of the part.
  have rebuilt : (momentOfParts ((m.parts.map ofInt).set part (ofInt v - partBase part))).result =
      .ok (.ofValid _ valid) := by
    rw [ofInt_sub_partBase month, Parts.map_set, momentOfParts_ofInt valid.toOnCalendar.safe,
      Moment.ofParts_of_valid valid]
  have after : (w.update r fun _ => .date (.ofValid _ valid)).moment r = .ofValid _ valid := by
    unfold World.moment
    rw [World.getElem?_update, if_pos rfl, dated]
    rfl
  refine ⟨_, _, found, write_part id dated rebuilt, ?_, fun other different => ?_, _, rfl,
    Moment.isWhole_ofValid valid, Moment.parts_ofValid valid⟩
  · refine (read_part id part _ r).trans ?_
    rw [after, Moment.parts_ofValid, Parts.get_set, if_pos rfl, Int.sub_add_cancel]
    rfl
  · obtain ⟨i, listed⟩ := dateBehavior_part other
    refine ⟨_, _, listed, read_part i other w r, (read_part i other _ r).trans ?_⟩
    rw [after, Moment.parts_ofValid, Parts.get_set, if_neg different, before]
    rfl

def leapNoonParts : Parts Int := ⟨1968, 1, 29, 12, 0, 0, 0⟩

theorem leapNoonParts_valid : leapNoonParts.Valid where
  month := by decide
  day := by decide
  date := ⟨by decide, by decide, by decide⟩
  range := by decide
  hour := by decide
  minute := by decide
  second := by decide
  millisecond := by decide
  ordinary := by decide

/-- A leap day is moved to another leap year, before the epoch. -/
theorem leap_noon_moves_to_leap_year :
    let m := Moment.ofValid leapNoonParts leapNoonParts_valid
    let w := { World.initial with objects := #[.date m] }
    w.objects[0]? = some (.date m) ∧ (m.parts.set .year (1964 - Part.year.origin)).Valid ∧
      ∃ p w', dateBehavior.property? "year" = some p ∧
        (Operation.invoke p (.date 0) [.number (ofInt 1964)]).perform.run w = .ok (.date 0) w' ∧
        (Operation.invoke p (.date 0) []).perform.run w' = .ok (.number (ofInt 1964)) w' := by
  intro m w
  have valid : (m.parts.set .year (1964 - Part.year.origin)).Valid := by
    rw [Moment.parts_ofValid]
    exact { leapNoonParts_valid with
      date := ⟨by decide, by decide, by decide⟩
      range := by decide }
  have dated : w.objects[0]? = some (.date m) := rfl
  obtain ⟨p, w', found, written, read, -, -⟩ := setting_part_keeps_others dated valid
  exact ⟨dated, valid, p, w', found, written, read⟩

end Accessors
