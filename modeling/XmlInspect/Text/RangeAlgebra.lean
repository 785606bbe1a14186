import XmlInspect.Text.RangeTable

/-!
# The algebra of range tables

The operations on sets of characters, on tables. A table is in normal form if its ranges ascend and
neither overlap nor touch; how many ranges a set needs can be read off that form only. Everything is
built from two operations: to bring a table into normal form, and to take what it leaves out.

Surrogates are code points but no characters. A complement leaves them out, so they never make a set
seem to hold something.
-/

namespace XmlInspect.Text.RangeTable

/-! ## Normal form -/

/-- Joins the ranges that overlap or touch in a table whose ranges ascend, after a first range. -/
def joinFrom (low high : Nat) : RangeTable → RangeTable
  | [] => [(low, high)]
  | (nextLow, nextHigh) :: rest =>
    if nextLow ≤ high + 1 then joinFrom low (max high nextHigh) rest
    else (low, high) :: joinFrom nextLow nextHigh rest

/-- The normal form of a table. -/
def normal (table : RangeTable) : RangeTable :=
  match table.mergeSort fun a b ↦ a.1 ≤ b.1 with
  | [] => []
  | (low, high) :: rest => joinFrom low high rest

/-! ## Operations -/

/-- The code points that are no characters. -/
def surrogates : Nat × Nat := (0xD800, 0xDFFF)

/-- The greatest code point. -/
def greatest : Nat := 0x10FFFF

/-- What a table in normal form leaves out from a code point on. -/
def gapsFrom (start : Nat) : RangeTable → RangeTable
  | [] => if start ≤ greatest then [(start, greatest)] else []
  | (low, high) :: rest =>
    if start < low then (start, low - 1) :: gapsFrom (high + 1) rest else gapsFrom (high + 1) rest

/-- The characters that are not in a table. -/
def complement (table : RangeTable) : RangeTable := gapsFrom 0 (normal (surrogates :: table))

def union (a b : RangeTable) : RangeTable := normal (a ++ b)

def inter (a b : RangeTable) : RangeTable := complement (complement a ++ complement b)

def difference (a b : RangeTable) : RangeTable := inter a (complement b)

def symmetricDifference (a b : RangeTable) : RangeTable := difference (union a b) (inter a b)

end XmlInspect.Text.RangeTable
