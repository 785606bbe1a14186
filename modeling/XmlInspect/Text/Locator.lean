import XmlInspect.Text.Find
import XmlInspect.Text.Lines
import XmlInspect.Text.Position

/-!
# From offsets to positions

A locator answers where a byte offset of its text stands. It keeps the lines of the text, each with
all that follows from its start on, so an answer takes no more than the line it is about. Offsets
are mostly asked for in ascending order, so it also remembers its last answer and counts on from
there when the next offset is on the same line and not before it.

A count between two offsets is a number of characters. Only when one of the offsets falls inside
a character is there nothing to count, and the distance in bytes is taken instead. Because the
remembered column may come from such a distance, the memory shows in the answers for offsets
inside characters, and only there.
-/

namespace XmlInspect

/-! ## Lines -/

/-- Where a line starts, and the text from there to the end. -/
structure Line where
  start : Nat
  rest : List Char
  deriving DecidableEq, Repr

namespace Text

/-- The lines after the first, for a text that starts at `offset`. -/
def laterLines (offset : Nat) : List Char → List Line
  | [] => []
  | '\r' :: '\n' :: rest => ⟨offset + 2, rest⟩ :: laterLines (offset + 2) rest
  | c :: rest =>
    if isLineEnd c then
      ⟨offset + 1, rest⟩ :: laterLines (offset + 1) rest
    else
      laterLines (offset + c.utf8Size) rest

/-- The lines of a text. -/
def linesOf (text : List Char) : List Line := ⟨0, text⟩ :: laterLines 0 text

/-- The number of characters in the first `n` bytes, unless the `n`-th byte falls inside a character
or beyond the end. -/
def charsWithin? : Nat → List Char → Option Nat
  | 0, _ => some 0
  | _ + 1, [] => none
  | n + 1, c :: rest =>
    if c.utf8Size ≤ n + 1 then (charsWithin? (n + 1 - c.utf8Size) rest).map (· + 1) else none

end Text

/-- The distance between two offsets that are not before a line: in characters if both are between
characters, and otherwise in bytes. -/
def Line.distance (line : Line) (low high : Nat) : Nat :=
  match Text.dropBytes? (low - line.start) line.rest with
  | some text => (Text.charsWithin? (high - low) text).getD (high - low)
  | none => high - low

/-! ## The locator -/

/-- An offset together with its position. -/
structure Memo where
  offset : Nat
  position : Position
  deriving DecidableEq, Repr

/-- The size and the lines of a text, and the last answer given. -/
structure Locator where
  size : Nat
  lines : List Line
  last : Memo

namespace Locator

/-- The locator of a text, which stands at the text's first character. -/
def of (text : List Char) : Locator where
  size := Text.byteSize text
  lines := Text.linesOf text
  last := ⟨0, ⟨1, 0⟩⟩

variable (locator : Locator)

/-- The number of lines. -/
def lineCount : Nat := locator.lines.length

/-- The number of the line of an offset: as many lines start at or before it. -/
def lineAt (offset : Nat) : Nat := locator.lines.countP (·.start ≤ offset)

/-- Where to count from to an offset on a line: the last answer, if it is on the line and not past
the offset, and else the start of the line. -/
def countFrom (number : Nat) (line : Line) (offset : Nat) : Memo :=
  if locator.last.position.line = number ∧ locator.last.offset ≤ offset then locator.last
  else ⟨line.start, ⟨number, 0⟩⟩

/-- The position of an offset, and the locator that remembers it. An offset beyond the end is
taken for the end. -/
def position (offset : Nat) : Position × Locator :=
  let offset := min offset locator.size
  let number := locator.lineAt offset
  let line := locator.lines.getD (number - 1) ⟨0, []⟩
  let known := locator.countFrom number line offset
  let position : Position := ⟨number, known.position.column + line.distance known.offset offset⟩
  (position, { locator with last := ⟨offset, position⟩ })

/-- The positions of several offsets, asked for in turn. -/
def positions (locator : Locator) : List Nat → List Position
  | [] => []
  | offset :: offsets =>
    let (position, locator) := locator.position offset
    position :: locator.positions offsets

end Locator

end XmlInspect
