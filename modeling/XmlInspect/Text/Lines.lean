/-!
# Lines

A line ends at a line feed, at a carriage return, or at the two together. The pair is one
terminator, so it has to be looked for first. A text always has one line more than it has
terminators; the last line may be empty.

Three readings of a text need this rule: its lines (`splitLines`), the offsets at which lines
start (`Locator`), and the distance that a text moves whatever follows it (`Shift.past`). Each is
a recursion of its own.
-/

namespace XmlInspect

namespace Text

/-- Whether a character ends a line by itself. -/
def isLineEnd (c : Char) : Bool := c == '\n' || c == '\r'

/-- Puts a character in front of the first line. -/
def consLine (c : Char) : List (List Char) → List (List Char)
  | [] => [[c]]
  | line :: lines => (c :: line) :: lines

/-- The lines of a text, without their terminators. -/
def splitLines : List Char → List (List Char)
  | [] => [[]]
  | '\r' :: '\n' :: rest => [] :: splitLines rest
  | c :: rest => if isLineEnd c then [] :: splitLines rest else consLine c (splitLines rest)

theorem splitLines_ne_nil (text : List Char) : splitLines text ≠ [] := by
  fun_cases splitLines text with
  | case1 => simp
  | case2 => simp
  | case3 => simp
  | case4 c rest =>
    cases splitLines rest <;> simp [consLine]

end Text

/-! ## Distances -/

/-- How far a text moves what follows it. -/
@[ext] structure Shift where
  /-- The number of line terminators. -/
  lines : Nat
  /-- The number of characters after the last of them. -/
  characters : Nat
  deriving DecidableEq, Repr

namespace Shift

/-- No distance at all. -/
def zero : Shift := ⟨0, 0⟩

/-- The distance after reading further text. -/
def past (shift : Shift) : List Char → Shift
  | [] => shift
  | '\r' :: '\n' :: rest => past ⟨shift.lines + 1, 0⟩ rest
  | c :: rest =>
    if Text.isLineEnd c then
      past ⟨shift.lines + 1, 0⟩ rest
    else
      past ⟨shift.lines, shift.characters + 1⟩ rest

/-- The distance that a text covers. -/
def of (text : List Char) : Shift := zero.past text

end Shift

end XmlInspect
