import XmlInspect.Error
import XmlInspect.Source

/-!
# Input files

What an analysis starts from: the bytes of a file, if they can be had, and the charset that somebody
declares for them.
-/

namespace XmlInspect

/-- A file to be analysed. -/
structure InputFile where
  /-- Names the file in messages. -/
  uri : String
  /-- The declared charset. It is sniffed if there is none. -/
  charset : Option Charset
  /-- The bytes of the file, or why they cannot be had. -/
  bytes : Except Error (List UInt8)

namespace InputFile

/-- A file that holds a text. -/
def ofText (uri text : String) : InputFile := ⟨uri, some .utf8, .ok text.toUTF8.toList⟩

/-- Reads and decodes a file. -/
def read [EastAsianDecoder] (input : InputFile) : Except Error Source := do
  let bytes ← input.bytes
  (Source.ofBytes input.uri bytes input.charset).mapError .charset

end InputFile

end XmlInspect
