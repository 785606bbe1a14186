/-!
# Tables of character ranges

A property of characters that no formula gives is a list of closed ranges of code points. The
tables of this library are written in ascending order, which membership does not need.
-/

namespace XmlInspect.Text

/-- Closed ranges of code points. -/
abbrev RangeTable := List (Nat × Nat)

/-- Whether some range of the table holds the code point. -/
def RangeTable.holds (table : RangeTable) (n : Nat) : Bool :=
  table.any fun (low, high) ↦ low ≤ n && n ≤ high

/-- Whether some range of the table holds the character. -/
def RangeTable.contains (table : RangeTable) (c : Char) : Bool := table.holds c.toNat

theorem RangeTable.contains_iff {table : RangeTable} {c : Char} :
    table.contains c = true ↔ ∃ range ∈ table, range.1 ≤ c.toNat ∧ c.toNat ≤ range.2 := by
  simp [RangeTable.contains, RangeTable.holds]

end XmlInspect.Text
