import Accessors.Engine.Interpret

/-! Engines of bounded depth. An engine of depth `n` nests calls at most `n` levels deep;
beyond that an action stops as too deep, which is never confused with an error. The depth
a call gets allows a fixed number of nested calls besides one level for every object, so
that values which do not contain themselves can always be followed to their ends. -/

namespace Accessors

def engine : (depth : Nat) → Engine
  | 0 => ⟨fun _ _ _ => throw .tooDeep, fun _ _ => throw .tooDeep, fun _ => throw .tooDeep⟩
  | depth + 1 =>
    ⟨fun body this args => body.eval (engine depth) this args,
      fun p this => p.invoke (engine depth) this [],
      fun v => valueToJson (engine depth) v⟩

/-- How deep calls may nest, objects aside. -/
def callDepth : Nat := 65536

def World.depth (w : World) : Nat :=
  callDepth + w.objects.size

/-- Performs an action with the engine for the present world. -/
def withEngine {α : Type} (f : Engine → Action α) : Action α := do
  f (engine (← get).depth)

end Accessors
