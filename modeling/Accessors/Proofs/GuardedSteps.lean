import Accessors.Proofs.DateProperties

/-! Overflow while a date is made of seven parts. A step of a reckoning that fails ends it, and
a reckoning overflows only through one of its steps. Of the two steps that are not guarded, one
always fits, and the other takes one from the day. Main statement: that step alone can overflow,
just for the least day there is, and making a date or setting a part of one then overflows too
(`day_before_least_overflows`). -/

namespace Accessors
namespace Calendar
open Number

theorem Step.result_overflow {s : Step} :
    s.result = .error .overflow ↔ s.guarded = false ∧ fitsInt64 s.exact = false := by
  unfold Step.result
  cases s.guarded <;> cases fitsInt64 s.exact <;> simp

theorem Step.result_refused {s : Step} :
    s.result = .error .refused ↔ s.guarded = true ∧ fitsInt64 s.exact = false := by
  unfold Step.result
  cases s.guarded <;> cases fitsInt64 s.exact <;> simp

namespace Reckoning
variable {α β : Type}

/-- The exact result of a step fits, or the step is guarded and the reckoning gives up. -/
def Safe (a : Reckoning α) (s : Step) : Prop :=
  fitsInt64 s.exact = true ∨ s.guarded = true ∧ a.result = .error .refused

/-- What fails in a step is what the reckoning fails with, and only steps of a kind overflow. -/
structure Sound (risky : Step → Prop) (a : Reckoning α) : Prop where
  ends : ∀ s ∈ a.steps, ∀ fault, s.result = .error fault → a.result = .error fault
  overflows : a.result = .error .overflow → ∃ s ∈ a.steps, s.result = .error .overflow
  only : ∀ s ∈ a.steps, s.result = .error .overflow → risky s

namespace Sound
variable {risky : Step → Prop}

theorem perform {s : Step} (risk : s.result = .error .overflow → risky s) :
    Sound risky (perform s) where
  ends t mem fault failed := by
    obtain rfl := List.mem_singleton.mp mem
    exact failed
  overflows failed := ⟨s, List.mem_singleton.mpr rfl, failed⟩
  only t mem failed := by
    obtain rfl := List.mem_singleton.mp mem
    exact risk failed

theorem guarded (n : Int) : Sound risky (guarded n) :=
  .perform fun failed => nomatch (Step.result_overflow.mp failed).1

theorem unguarded {n : Int} (fits : fitsInt64 n = true ∨ risky ⟨n, false⟩) :
    Sound risky (unguarded n) :=
  .perform fun failed => fits.resolve_left (Bool.eq_false_iff.mp (Step.result_overflow.mp failed).2)

theorem ofOption (a : Option α) : Sound risky (ofOption a) where
  ends s mem := nomatch mem
  overflows failed := by cases a <;> cases failed
  only s mem := nomatch mem

theorem bind {a : Reckoning α} {k : α → Reckoning β} (first : Sound risky a)
    (next : ∀ v, Sound risky (k v)) : Sound risky (a >>= k) where
  ends s mem fault failed := by
    rw [bind_result]
    rcases mem_bind_steps.mp mem with mem | ⟨v, ended, mem⟩
    · rw [first.ends s mem fault failed]
      rfl
    · rw [ended]
      exact (next v).ends s mem fault failed
  overflows failed := by
    rw [bind_result] at failed
    cases ended : a.result with
    | ok v =>
      rw [ended] at failed
      obtain ⟨s, mem, beyond⟩ := (next v).overflows failed
      exact ⟨s, mem_bind_steps.mpr (.inr ⟨v, ended, mem⟩), beyond⟩
    | error fault =>
      rw [ended] at failed
      cases failed
      obtain ⟨s, mem, beyond⟩ := first.overflows ended
      exact ⟨s, mem_bind_steps.mpr (.inl mem), beyond⟩
  only s mem failed := by
    rcases mem_bind_steps.mp mem with mem | ⟨v, _, mem⟩
    · exact first.only s mem failed
    · exact (next v).only s mem failed

theorem safe_or {a : Reckoning α} (sound : Sound risky a) {s : Step} (mem : s ∈ a.steps) :
    a.Safe s ∨ risky s ∧ a.result = .error .overflow := by
  by_cases fits : fitsInt64 s.exact = true
  · exact .inl (.inl fits)
  have beyond := Bool.eq_false_iff.mpr fits
  by_cases guarded : s.guarded = true
  · exact .inl (.inr ⟨guarded, sound.ends s mem _ (Step.result_refused.mpr ⟨guarded, beyond⟩)⟩)
  · have failed := Step.result_overflow.mpr ⟨Bool.eq_false_iff.mpr guarded, beyond⟩
    exact .inr ⟨sound.only s mem failed, sound.ends s mem _ failed⟩

end Sound

end Reckoning

open Reckoning

def Step.beforeLeast : Step := ⟨leastInt64 - 1, false⟩

namespace Parts

/-- The day is the least there is, and year and month name a month of the calendar. -/
def BeforeLeast (p : Parts Int) : Prop :=
  p.day = leastInt64 ∧ ∃ first, p.firstOfMonth.result = .ok first

variable {p : Parts Int} {risky : Step → Prop}

theorem firstOfMonth_sound (p : Parts Int) : Sound risky p.firstOfMonth := by
  refine .bind (.guarded _) fun years => .bind (.guarded _) fun months => ?_
  refine .bind (.ofOption _) fun year => .bind (.unguarded (.inl ?_)) fun month => .ofOption _
  exact decide_eq_true (by unfold leastInt64 greatestInt64; omega)

theorem elapsed_sound (day : fitsInt64 (p.day - 1) = true ∨ risky ⟨p.day - 1, false⟩) :
    Sound risky p.elapsed :=
  .bind (.unguarded day) fun _ => .bind (.guarded _) fun _ => .bind (.guarded _)
    fun _ => .bind (.guarded _) fun _ => .bind (.guarded _) fun _ => .bind (.guarded _)
    fun _ => .bind (.guarded _) fun _ => .bind (.guarded _) fun _ => .guarded _

end Parts

theorem day_before_fits {day : Int} (fits : fitsInt64 day = true) :
    fitsInt64 (day - 1) = true ∨ day = leastInt64 := by
  unfold fitsInt64 at *
  simp only [decide_eq_true_eq] at *
  omega

namespace Moment
variable {p : Parts Int}

theorem ofParts_sound (fits : fitsInt64 p.day = true) :
    Sound (fun s => s = .beforeLeast ∧ p.day = leastInt64) (ofParts p) := by
  have day := day_before_fits fits
  refine .bind p.firstOfMonth_sound fun _ => .bind (Parts.elapsed_sound ?_) fun _ => .ofOption _
  refine day.imp_right fun least => ⟨?_, least⟩
  rw [least]
  rfl

theorem day_before_mem {first : Int} (start : p.firstOfMonth.result = .ok first) :
    (⟨p.day - 1, false⟩ : Step) ∈ (ofParts p).steps := by
  refine mem_bind_steps.mpr (.inr ⟨first, start, ?_⟩)
  refine mem_bind_steps.mpr (.inl ?_)
  exact mem_bind_steps.mpr (.inl (List.mem_singleton.mpr rfl))

theorem ofParts_overflow (fits : fitsInt64 p.day = true) :
    (ofParts p).result = .error .overflow ↔ p.BeforeLeast := by
  have sound := ofParts_sound fits
  constructor
  · intro failed
    obtain ⟨s, mem, beyond⟩ := sound.overflows failed
    obtain ⟨-, least⟩ := sound.only s mem beyond
    rcases mem_bind_steps.mp mem with mem | ⟨first, start, _⟩
    · have harmless : Sound (fun _ => False) p.firstOfMonth := p.firstOfMonth_sound
      exact (harmless.only s mem beyond).elim
    · exact ⟨least, first, start⟩
  · rintro ⟨least, first, start⟩
    have asked := day_before_mem start
    rw [least] at asked
    exact sound.ends _ asked _ rfl

theorem safe_or_beforeLeast (fits : fitsInt64 p.day = true) {s : Step}
    (mem : s ∈ (ofParts p).steps) :
    (ofParts p).Safe s ∨ s = .beforeLeast ∧ (ofParts p).result = .error .overflow :=
  ((ofParts_sound fits).safe_or mem).imp_right fun ⟨⟨eq, _⟩, ended⟩ => ⟨eq, ended⟩

theorem safe_iff (fits : fitsInt64 p.day = true) :
    (∀ s ∈ (ofParts p).steps, (ofParts p).Safe s) ↔ ¬ p.BeforeLeast := by
  constructor
  · rintro all ⟨least, first, start⟩
    have asked := day_before_mem start
    rw [least] at asked
    have refused := (all _ asked).resolve_left (by decide)
    exact Bool.false_ne_true refused.1
  · intro spared s mem
    refine (safe_or_beforeLeast fits mem).resolve_right fun overflows => spared ?_
    exact (ofParts_overflow fits).mp overflows.2

end Moment

end Calendar

open Calendar Number

theorem exists_ok_of_isOk {ε α : Type} {x : Except ε α} (ended : x.isOk = true) :
    ∃ a, x = .ok a := by
  cases x with
  | ok a => exact ⟨a, rfl⟩
  | error e => cases ended

theorem orInvalid_overflow {α : Type} {text : String} {a : Except Fault α} :
    orInvalid text a = .error .overflow ↔ a = .error .overflow := by
  cases a with
  | ok v => exact ⟨nofun, nofun⟩
  | error fault => cases fault <;> simp [orInvalid]

theorem World.momentOf_several (w : World) {args : List Value} (several : 1 < args.length) :
    w.momentOf args = orInvalid "date out of range"
      (momentOfParts (defaultParts.override (args.map w.toNumber))).result := by
  match args with
  | [] | [_] => simp at several
  | first :: second :: rest => cases first <;> rfl

theorem construct_date_overflow {w : World} {args : List Value} :
    (NativeType.date.construct args).run w = .error .overflow w ↔
      w.momentOf args = .error .overflow := by
  show (attempt (w.momentOf args) >>= newDate).run w = _ ↔ _
  cases w.momentOf args with
  | ok m => exact ⟨nofun, nofun⟩
  | error stop => exact ⟨fun ended => by cases ended; rfl, fun same => by cases same; rfl⟩

theorem write_part_overflow {w : World} {r : Ref} {part : Part} {value : Value} :
    ((DateField.part part).write (.date r) value).run w = .error .overflow w ↔
      (momentOfParts (((w.moment r).parts.map ofInt).set part
        (w.toNumber value - partBase part))).result = .error .overflow := by
  rw [write_part_run, ← orInvalid_overflow]
  generalize orInvalid _ _ = made
  cases made with
  | ok m => exact ⟨nofun, nofun⟩
  | error stop => exact ⟨fun ended => by cases ended; rfl, fun same => by cases same; rfl⟩

/-- Making a date of seven finite doubles, every step of 64-bit arithmetic but one has its exact
result, or is guarded and no date is made. What is left over is the day before the least day there
is. It is asked for just when year and month name a month of the calendar, and then the step
overflows, and with it the call that makes a date of these parts or sets one of them. -/
theorem day_before_least_overflows {x : Parts Float}
    (finite : x.toList.all Number.isFinite = true) :
    let p := x.map Number.toInt64
    let made := momentOfParts x
    (∀ s ∈ made.steps, made.Safe s ∨ s = .beforeLeast ∧ made.result = .error .overflow) ∧
      ((∀ s ∈ made.steps, made.Safe s) ↔ ¬ p.BeforeLeast) ∧
      (∀ (w : World) (args : List Value), 1 < args.length →
        defaultParts.override (args.map w.toNumber) = x →
        ((NativeType.date.construct args).run w = .error .overflow w ↔ p.BeforeLeast)) ∧
      ∀ (w : World) (r : Ref) (part : Part) (value : Value),
        ((w.moment r).parts.map ofInt).set part (w.toNumber value - partBase part) = x →
        (((DateField.part part).write (.date r) value).run w = .error .overflow w ↔
          p.BeforeLeast) := by
  intro p made
  have reckoned : made = Moment.ofParts p := if_pos finite
  have fits : fitsInt64 p.day = true := toInt64_fits x.day
  have overflows : made.result = .error .overflow ↔ p.BeforeLeast := by
    rw [reckoned]
    exact Moment.ofParts_overflow fits
  refine ⟨fun s mem => ?_, ?_, fun w args several same => ?_, fun w r part value same => ?_⟩
  · rw [reckoned] at mem ⊢
    exact Moment.safe_or_beforeLeast fits mem
  · rw [reckoned]
    exact Moment.safe_iff fits
  · rw [construct_date_overflow, w.momentOf_several several, same, orInvalid_overflow]
    exact overflows
  · rw [write_part_overflow, same]
    exact overflows

theorem january_2020_safe :
    let x : Parts Float := ⟨ofInt 2020, 0, 1, 0, 0, 0, 0⟩
    x.toList.all Number.isFinite = true ∧
      ∀ s ∈ (momentOfParts x).steps, (momentOfParts x).Safe s := by
  intro x
  have finite : x.toList.all Number.isFinite = true := by decide +kernel
  have other : (x.map Number.toInt64).day ≠ leastInt64 := by decide +kernel
  obtain ⟨-, safe, -, -⟩ := day_before_least_overflows finite
  exact ⟨finite, safe.mpr fun least => other least.1⟩

def leastDay : Parts Float := ⟨ofInt 2020, 0, ofInt leastInt64, 0, 0, 0, 0⟩

/-- Finite doubles for which a step overflows, and with it the call that makes a date of them. -/
theorem least_day_not_safe :
    leastDay.toList.all Number.isFinite = true ∧
      (¬ ∀ s ∈ (momentOfParts leastDay).steps, (momentOfParts leastDay).Safe s) ∧
      (NativeType.date.construct (leastDay.toList.map Value.number)).run .initial =
        .error .overflow .initial := by
  have finite : leastDay.toList.all Number.isFinite = true := by decide +kernel
  have fits := toInt64_fits leastDay.day
  have reckoned : momentOfParts leastDay = Moment.ofParts (leastDay.map Number.toInt64) :=
    if_pos finite
  have before : (leastDay.map Number.toInt64).BeforeLeast :=
    ⟨by decide +kernel, exists_ok_of_isOk (by decide +kernel)⟩
  refine ⟨finite, ?_, ?_⟩
  · rw [reckoned, Moment.safe_iff fits]
    exact not_not.mpr before
  · have numbers : defaultParts.override
        ((leastDay.toList.map Value.number).map World.initial.toNumber) = leastDay := rfl
    rw [construct_date_overflow, World.momentOf_several _ (by decide), numbers, orInvalid_overflow,
      reckoned, Moment.ofParts_overflow fits]
    exact before

end Accessors
