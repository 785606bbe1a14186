import XmlInspect.Charset.CodePage
import XmlInspect.Charset.EastAsian
import XmlInspect.Charset.Utf16
import XmlInspect.Charset.Utf8

/-!
# Charsets

A charset is its canonical name and the scheme by which it turns bytes into text. Decoding is
strict: one byte that is no part of a character spoils the whole. A byte-order mark is text like
any other here; it is the source that takes it off.
-/

namespace XmlInspect

/-- A way to turn bytes into text. -/
inductive Scheme where
  | utf8
  | utf16 (order : ByteOrder)
  /-- ASCII below 80 and a page above. -/
  | singleByte (page : CodePage)
  /-- ASCII below 80 and the private characters from F780 above. -/
  | userDefined
  | eastAsian (charset : EastAsian)
  /-- Stands for schemes that are unsafe to decode: only the empty text is accepted. -/
  | replacement

namespace Scheme

/-- Decodes byte by byte: below 80 as ASCII, above by `upper`. -/
def decodeBytewise (upper : UInt8 → Option Char) (bytes : List UInt8) : Option (List Char) :=
  bytes.mapM fun byte ↦ if byte < 0x80 then some (Char.ofNat byte.toNat) else upper byte

/-- The text that bytes stand for, or nothing if they are malformed. -/
def decode [EastAsianDecoder] : Scheme → List UInt8 → Option (List Char)
  | utf8, bytes => Utf8.decode bytes
  | utf16 order, bytes => Utf16.decode order bytes
  | singleByte page, bytes => decodeBytewise page.char? bytes
  | userDefined, bytes => decodeBytewise (fun byte ↦ some (Char.ofNat (0xF700 + byte.toNat))) bytes
  | eastAsian charset, bytes => EastAsianDecoder.decode charset bytes
  | replacement, bytes => if bytes.isEmpty then some [] else none

end Scheme

/-- A character encoding. -/
structure Charset where
  /-- The canonical name. -/
  name : String
  scheme : Scheme

/-- What is wrong with a charset or with bytes read by it. -/
inductive CharsetFault where
  /-- No charset goes by this label. -/
  | unknownLabel (label : String)
  /-- The bytes are no text of the charset with this name. -/
  | malformedBytes (name : String)
  deriving DecidableEq, Repr

namespace CharsetFault

def message : CharsetFault → String
  | unknownLabel label => s!"Unsupported charset: {label}"
  | malformedBytes name => s!"Unable to decode content as {name}: malformed byte sequence"

end CharsetFault

namespace Charset

def utf8 : Charset := ⟨"UTF-8", .utf8⟩

def utf16le : Charset := ⟨"UTF-16LE", .utf16 .little⟩

def utf16be : Charset := ⟨"UTF-16BE", .utf16 .big⟩

/-- Whether the charset has units of sixteen bits. -/
def isUtf16 (charset : Charset) : Bool :=
  match charset.scheme with
  | .utf16 _ => true
  | _ => false

/-- Decodes bytes strictly. -/
def decode [EastAsianDecoder] (charset : Charset) (bytes : List UInt8) :
    Except CharsetFault (List Char) :=
  match charset.scheme.decode bytes with
  | some text => .ok text
  | none => .error (.malformedBytes charset.name)

end Charset

end XmlInspect
