import XmlInspect.Charset.Sniff
import XmlInspect.Text.Lines
import XmlInspect.Text.Position

/-!
# Sources

A source is the decoded content of one file, taken apart for reading. A byte-order mark at its
head is removed. What stands before an XML declaration, the *preamble*, is no XML and is kept
aside; the rest, the *body*, is what gets parsed. Positions in the body are moved back into the
file by the distance that the preamble covers, and by one column on the first line if there was
a mark.

Only the first `<` of the content can start the declaration, since a preamble holds no markup.
A content without declaration is all body, even if it starts with something else than markup.
-/

namespace XmlInspect

/-- The decoded content of a file. -/
structure Source where
  /-- Names the file in messages. -/
  uri : String
  /-- What the content was decoded by. -/
  charset : Charset
  /-- Whether a byte-order mark was removed from the head. -/
  marked : Bool
  /-- What stands before the XML declaration. -/
  preamble : List Char
  /-- The part that is parsed. -/
  body : List Char

namespace Source

/-! ## Taking content apart -/

/-- Whether a text starts with an XML declaration. -/
def startsDeclaration (text : List Char) : Bool :=
  match Text.stripStart? "<?xml".toList text with
  | some (c :: _) => Text.isAsciiBlank c || c == '?'
  | _ => false

/-- The preamble and the body of a content. -/
def splitPreamble (content : List Char) : List Char × List Char :=
  let body := content.dropWhile (· != '<')
  if startsDeclaration body then (content.takeWhile (· != '<'), body) else ([], content)

theorem splitPreamble_append (content : List Char) :
    (splitPreamble content).1 ++ (splitPreamble content).2 = content := by
  unfold splitPreamble
  dsimp only
  split
  · exact List.takeWhile_append_dropWhile
  · simp

/-- The source of a decoded text. -/
def ofChars (uri : String) (charset : Charset) (text : List Char) : Source :=
  let marked := text.head? == some Text.byteOrderMark
  let content := if marked then text.drop 1 else text
  { uri, charset, marked
    preamble := (splitPreamble content).1
    body := (splitPreamble content).2 }

/-- The source of a text that was never bytes. -/
def ofText (uri : String) (text : String) : Source := ofChars uri .utf8 text.toList

/-- The source of bytes, whose charset is sniffed if none is given. -/
def ofBytes [EastAsianDecoder] (uri : String) (bytes : List UInt8) (charset : Option Charset) :
    Except CharsetFault Source := do
  let charset := charset.getD (Charset.sniff bytes)
  return ofChars uri charset (← charset.decode bytes)

variable (source : Source)

/-! ## Parts -/

/-- The whole content, without the mark. -/
def content : List Char := source.preamble ++ source.body

/-- The offset of the body in the content. -/
def bodyOffset : Nat := Text.byteSize source.preamble

/-- How far the preamble moves the body. -/
def shift : Shift := .of source.preamble

/-- Whether something that is no XML comes first: a preamble, or text before the first markup that
is not all blank. -/
def hasPreamble : Bool :=
  !source.preamble.isEmpty || (source.body.takeWhile (· != '<')).any (!Text.isBlank ·)

/-- The lines of the content. -/
def lines : List (List Char) := Text.splitLines source.content

/-! ## Positions in the file -/

/-- The column at which a line of the file starts, which is one only after a mark. -/
def firstColumn (line : Nat) : Nat := if source.marked && line == 1 then 1 else 0

/-- Where a position of the body stands in the file. -/
def toFile (position : Position) : Position :=
  let line := position.line + source.shift.lines
  if position.line = 1 then
    ⟨line, position.column + source.shift.characters + source.firstColumn line⟩
  else
    ⟨line, position.column⟩

/-- The range between two columns of one of the lines. -/
def lineRange (line start stop : Nat) : Except InvalidRange TextRange :=
  let first := source.firstColumn line
  TextRange.between ⟨line, start + first⟩ ⟨line, stop + first⟩

end Source

end XmlInspect
