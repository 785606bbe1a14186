import XmlInspect.Pattern.CharClass

/-!
# Classes of characters as tables

The set that a class stands for, as a table of ranges in normal form. Whether a character is in a
class can be told without it; the table tells how many ranges there are.
-/

namespace XmlInspect

open Text (RangeTable)

/-- The characters that separate words. -/
def blankTable : RangeTable := [
  (0x9, 0xD), (0x20, 0x20), (0x85, 0x85), (0xA0, 0xA0), (0x1680, 0x1680), (0x2000, 0x200A),
  (0x2028, 0x2029), (0x202F, 0x202F), (0x205F, 0x205F), (0x3000, 0x3000)]

theorem contains_blankTable (c : Char) : blankTable.contains c = Text.isBlank c := by
  rw [Bool.eq_iff_iff]
  simp only [blankTable, RangeTable.contains, RangeTable.holds, List.any_cons, List.any_nil,
    Text.isBlank, Bool.or_eq_true, Bool.and_eq_true, decide_eq_true_eq, beq_iff_eq,
    Bool.false_eq_true, or_false]
  omega

namespace CharClass

/-- The table of a class. If case does not count, ranges are closed under it. -/
def table (anyCase : Bool) : CharClass → RangeTable
  | empty => []
  | ranges bounds =>
    let codes := bounds.map fun (low, high) ↦ (low.toNat, high.toNat)
    if anyCase then RangeTable.closeCase codes else RangeTable.normal codes
  | digit => Text.decimalDigit
  | blank => blankTable
  | word => Text.wordChar
  | bracket inner => inner.table anyCase
  | negate inner => (inner.table anyCase).complement
  | union left right => (left.table anyCase).union (right.table anyCase)
  | inter left right => (left.table anyCase).inter (right.table anyCase)
  | difference left right => (left.table anyCase).difference (right.table anyCase)
  | symmetricDifference left right =>
    (left.table anyCase).symmetricDifference (right.table anyCase)

end CharClass

end XmlInspect
