/-! Sets of characters given as ascending lists of code point ranges, both ends included.
The tables of character properties in this folder are values of `Ranges`. -/

namespace Accessors.Text

abbrev Ranges := List (Nat × Nat)

/-- Since ranges ascend, the first one that does not end before the character decides. -/
def Ranges.has (table : Ranges) (c : Char) : Bool :=
  (table.find? fun range => c.toNat ≤ range.2).any fun range => range.1 ≤ c.toNat

theorem Ranges.has_cons (range : Nat × Nat) (table : Ranges) (c : Char) :
    Ranges.has (range :: table) c =
      if c.toNat ≤ range.2 then decide (range.1 ≤ c.toNat) else Ranges.has table c := by
  by_cases h : c.toNat ≤ range.2 <;> simp [Ranges.has, h]

theorem Ranges.has_of_lt {first last : Nat} {c : Char} (past : last < c.toNat)
    (table : Ranges) : Ranges.has ((first, last) :: table) c = Ranges.has table c := by
  rw [has_cons, if_neg (Nat.not_le.mpr past)]

end Accessors.Text
