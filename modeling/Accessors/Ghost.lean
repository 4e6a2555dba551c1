/-! Values that are there for statements only. A ghost is given by the predicate that one
value satisfies; predicates leave nothing behind when a program runs, so a ghost costs no
room and no time, and nothing that runs can depend on one. -/

namespace Accessors

structure Ghost (α : Type) where
  holds : α → Prop
  unique : ∃ a, holds = (a = ·)

namespace Ghost
variable {α β : Type}

def of (a : α) : Ghost α := ⟨(a = ·), a, rfl⟩

def map (f : α → β) (g : Ghost α) : Ghost β where
  holds b := ∃ a, g.holds a ∧ f a = b
  unique := by
    obtain ⟨a, h⟩ := g.unique
    refine ⟨f a, funext fun b => ?_⟩
    simp [h]

theorem ext {g h : Ghost α} (eq : g.holds = h.holds) : g = h := by
  cases g
  cases h
  cases eq
  rfl

theorem exists_of (g : Ghost α) : ∃ a, g = of a := by
  obtain ⟨a, h⟩ := g.unique
  exact ⟨a, ext h⟩

theorem map_of (f : α → β) (a : α) : (of a).map f = of (f a) :=
  ext (funext fun b => by simp [map, of])

theorem of_injective {a b : α} (h : of a = of b) : a = b := by
  have same : (a = b) = (b = b) := congrFun (congrArg holds h) b
  exact same.mpr rfl

theorem map_map {γ : Type} (f : β → γ) (g : α → β) (x : Ghost α) :
    (x.map g).map f = x.map fun a => f (g a) := by
  obtain ⟨a, rfl⟩ := x.exists_of
  simp only [map_of]

end Ghost

end Accessors
