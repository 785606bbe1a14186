import XmlInspect.Text.RangeTable

/-!
# Characters as rows of byte ranges

In UTF-8 a character is written as one to four bytes: a leading byte, which tells how many follow,
and bytes of six bits each. So the characters from one to another are not in general all that can be
written by taking the first byte from one range, the second from another, and so on, but they fall
into a few parts that are. Such a part is a row of byte ranges.

The parts are found digit by digit, to the base 64. If the first digits of the two bounds differ,
then all rows in between are complete, and what is left at either end has one first digit.
-/

namespace XmlInspect.Text

/-- A range of bytes. -/
abbrev ByteRange := Nat × Nat

/-- What is added to the digits after the first one. -/
def followMark : Nat := 0x80

/-- All bytes after the first one. -/
def anyFollow : ByteRange := (0x80, 0xBF)

/-- The rows for the numbers between two bounds, which are written by a first digit and some more.
The mark is added to the first digit. -/
def digitRows (mark : Nat) : Nat → Nat → Nat → List (List ByteRange)
  | 0, low, high => [[(mark + low, mark + high)]]
  | more + 1, low, high =>
    let unit := 1 <<< (6 * (more + 1))
    let first := low / unit
    let last := high / unit
    let startsFull := low % unit == 0
    let endsFull := high % unit == unit - 1
    let within (digit low high : Nat) : List (List ByteRange) :=
      (digitRows followMark more low high).map ((mark + digit, mark + digit) :: ·)
    if first = last then
      within first (low % unit) (high % unit)
    else
      let fullFrom := if startsFull then first else first + 1
      let fullTo := if endsFull then last + 1 else last
      let full :=
        if fullFrom < fullTo then
          [(mark + fullFrom, mark + fullTo - 1) :: List.replicate (more + 1) anyFollow]
        else
          []
      (if startsFull then [] else within first (low % unit) (unit - 1)) ++ full ++
        if endsFull then [] else within last 0 (high % unit)

/-- The characters that take the same number of bytes: the bounds of their code points, the mark of
their leading bytes, and the number of bytes after these. Surrogates are left out. -/
def byteForms : List (Nat × Nat × Nat × Nat) := [
  (0x0, 0x7F, 0x0, 0), (0x80, 0x7FF, 0xC0, 1), (0x800, 0xD7FF, 0xE0, 2), (0xE000, 0xFFFF, 0xE0, 2),
  (0x10000, 0x10FFFF, 0xF0, 3)]

/-- The rows of byte ranges for a table, in ascending order if the table is. -/
def RangeTable.byteRows (table : RangeTable) : List (List ByteRange) :=
  table.flatMap fun (low, high) ↦
    byteForms.flatMap fun (least, greatest, mark, more) ↦
      if max low least ≤ min high greatest then
        digitRows mark more (max low least) (min high greatest)
      else
        []

/-- The bytes of a character. -/
def utf8Bytes (c : Char) : List Nat :=
  (RangeTable.byteRows [(c.toNat, c.toNat)]).flatMap fun row ↦ row.map Prod.fst

end XmlInspect.Text
