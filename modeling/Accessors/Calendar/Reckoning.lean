import Accessors.Number.Binary

/-! Arithmetic on 64 bits. A reckoning keeps the steps that it performed beside its result. A
step whose exact result does not fit ends the reckoning: a guarded one gives up, and any other
one overflows, which no caller can catch. -/

namespace Accessors.Calendar
open Number

/-- An addition, subtraction or multiplication: the integer it should give, and whether it
gives up when this does not fit into 64 bits. -/
structure Step where
  exact : Int
  guarded : Bool
deriving DecidableEq

inductive Fault where
  | refused
  | overflow
deriving DecidableEq

structure Reckoning (α : Type) where
  steps : List Step
  result : Except Fault α

/-- What may be missing, and is refused then. -/
def orRefused {α : Type} : Option α → Except Fault α
  | some a => .ok a
  | none => .error .refused

def Step.result (s : Step) : Except Fault Int :=
  if fitsInt64 s.exact then .ok s.exact
  else .error (if s.guarded then .refused else .overflow)

namespace Reckoning
variable {α β : Type}

def perform (s : Step) : Reckoning Int := ⟨[s], s.result⟩

def guarded (n : Int) : Reckoning Int := perform ⟨n, true⟩

def unguarded (n : Int) : Reckoning Int := perform ⟨n, false⟩

/-- What the calendar answers, without a step of 64-bit arithmetic. -/
def ofOption (a : Option α) : Reckoning α := ⟨[], orRefused a⟩

protected def bind (a : Reckoning α) (k : α → Reckoning β) : Reckoning β :=
  match a.result with
  | .ok v => ⟨a.steps ++ (k v).steps, (k v).result⟩
  | .error fault => ⟨a.steps, .error fault⟩

instance : Monad Reckoning where
  pure v := ⟨[], .ok v⟩
  bind := Reckoning.bind

theorem bind_result (a : Reckoning α) (k : α → Reckoning β) :
    (a >>= k).result = a.result.bind fun v => (k v).result := by
  show (Reckoning.bind a k).result = _
  unfold Reckoning.bind
  cases a.result <;> rfl

theorem mem_bind_steps {a : Reckoning α} {k : α → Reckoning β} {s : Step} :
    s ∈ (a >>= k).steps ↔ s ∈ a.steps ∨ ∃ v, a.result = .ok v ∧ s ∈ (k v).steps := by
  show s ∈ (Reckoning.bind a k).steps ↔ _
  unfold Reckoning.bind
  cases a.result <;> simp

theorem bind_eq_ok {a : Reckoning α} {k : α → Reckoning β} {b : β} :
    (a >>= k).result = .ok b ↔ ∃ v, a.result = .ok v ∧ (k v).result = .ok b := by
  rw [bind_result]
  cases a.result <;> simp [Except.bind]

theorem perform_eq_ok {s : Step} {n : Int} :
    (perform s).result = .ok n ↔ fitsInt64 s.exact = true ∧ s.exact = n := by
  show s.result = .ok n ↔ _
  unfold Step.result
  split <;> simp_all

theorem ofOption_eq_ok {a : Option α} {v : α} : (ofOption a).result = .ok v ↔ a = some v := by
  cases a <;> simp [ofOption, orRefused]

end Reckoning

end Accessors.Calendar
