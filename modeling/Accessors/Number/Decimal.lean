import Accessors.Number.Rounding

/-! Shortest decimals. `shortest significand exponent` is the decimal with the fewest
digits among those that read back as the double `significand * 2 ^ exponent`, and of
these the nearest. A decimal reads back when it lies between the midpoints to the
neighbouring doubles, the midpoints included when the significand is even. A window is
what a grid of decimals shows of this interval; it is formed on a grid that is fine enough
for every double and then coarsened, a digit at a time, for as long as some grid point
reads back. `Window.coarser_reads` says that coarsening loses no such point. -/

namespace Accessors.Number

/-- Which of two equally near decimals is taken. -/
inductive Tie where
  | up
  | even
deriving DecidableEq

/-- The number `digits * 10 ^ exponent`. -/
structure Decimal where
  digits : Nat
  exponent : Int
deriving DecidableEq

/-- A positive value on the grid of the multiples of `10 ^ exponent`. The grid points that
read back are those from `least` to `greatest`; the value is the point `below`, when `exact`,
or lies between it and the next one, and `rest` compares it with the middle of the two. -/
structure Window where
  exponent : Int
  least : Nat
  greatest : Nat
  below : Nat
  exact : Bool
  rest : Ordering

/-- The window for points that are multiples of `unit`. -/
def Window.of (exponent : Int) (low value high unit : Nat) (closed : Bool) : Window where
  exponent := exponent
  least := if closed then (low + unit - 1) / unit else low / unit + 1
  greatest := if closed then high / unit else (high - 1) / unit
  below := value / unit
  exact := value % unit = 0
  rest := compare (2 * (value % unit)) unit

/-- A grid on which a double has eighteen digits or more, while seventeen always suffice.
A bit counts for 0.30103 decimal digits. -/
def fineExponent (significand : Nat) (exponent : Int) : Int :=
  (significand.log2 + exponent) * 30103 / 100000 - 17

/-- Midpoints are a quarter step away below the least significand of a binade and a
half step away elsewhere, so everything is counted in quarters. -/
def window (significand : Nat) (exponent : Int) : Window :=
  let grid := fineExponent significand exponent
  let scale := power 2 exponent * power 10 (-grid)
  let below := if significand = binade && decide (-1074 < exponent) then 1 else 2
  .of grid ((4 * significand - below) * scale) (4 * significand * scale)
    ((4 * significand + 2) * scale) (4 * power 2 (-exponent) * power 10 grid)
    (significand % 2 = 0)

/-- The window on the grid that is ten times as coarse. -/
def Window.coarser (w : Window) : Window where
  exponent := w.exponent + 1
  least := (w.least + 9) / 10
  greatest := w.greatest / 10
  below := w.below / 10
  exact := w.exact && w.below % 10 = 0
  rest := (compare (w.below % 10) 5).then (if w.exact then .eq else .gt)

/-- Coarsens as often as a grid point is left that reads back. -/
def Window.coarsest : (steps : Nat) → Window → Window
  | 0, w => w
  | steps + 1, w =>
    if w.coarser.least ≤ w.coarser.greatest then w.coarser.coarsest steps else w

/-- The nearest grid point that reads back. -/
def Window.nearest (w : Window) (tie : Tie) : Nat :=
  if w.below < w.least then w.below + 1
  else if w.greatest ≤ w.below then w.below
  else
    match w.rest, tie with
    | .lt, _ => w.below
    | .gt, _ => w.below + 1
    | .eq, .up => w.below + 1
    | .eq, .even => w.below + w.below % 2

/-- The finest grid has at most twenty digits. -/
def shortest (tie : Tie) (significand : Nat) (exponent : Int) : Decimal :=
  let w := (window significand exponent).coarsest 20
  ⟨w.nearest tie, w.exponent⟩

/-- A point of the coarser grid reads back exactly when it does as one of the finer grid. -/
theorem Window.coarser_reads (w : Window) (point : Nat) :
    w.coarser.least ≤ point ∧ point ≤ w.coarser.greatest ↔
      w.least ≤ 10 * point ∧ 10 * point ≤ w.greatest := by
  simp only [coarser]
  omega

theorem Window.coarsest_reads (steps : Nat) {w : Window} (h : w.least ≤ w.greatest) :
    (w.coarsest steps).least ≤ (w.coarsest steps).greatest := by
  induction steps generalizing w with
  | zero => exact h
  | succ steps ih =>
    rw [coarsest]
    split
    · exact ih ‹_›
    · exact h

end Accessors.Number
