import XmlInspect.Charset.ShiftJis

/-!
# Charsets of East Asia

Their characters take one byte or several, and only large tables say which characters these are.
The tables do not belong to this library: it leaves such bytes to a decoder, and nothing else
depends on which decoder that is. The program runs with one that knows the ASCII part of every
charset and what `ShiftJis` has.
-/

namespace XmlInspect

/-- A charset of East Asia. -/
inductive EastAsian where
  | big5
  | eucJp
  | eucKr
  | gb18030
  | gbk
  | iso2022Jp
  | shiftJis
  deriving DecidableEq, Repr

/-- Decodes bytes of East Asian charsets. -/
class EastAsianDecoder where
  /-- The text that bytes stand for, or nothing if they are malformed. -/
  decode : EastAsian → List UInt8 → Option (List Char)

namespace EastAsian

/-- Decodes ASCII, except for some bytes. -/
def asciiPart (refused bytes : List UInt8) : Option (List Char) :=
  if bytes.all fun byte ↦ byte < 0x80 && !refused.contains byte then
    some (bytes.map fun byte ↦ Char.ofNat byte.toNat)
  else
    none

instance decoder : EastAsianDecoder where
  decode
    | big5 | eucJp | eucKr | gb18030 | gbk => asciiPart []
    | iso2022Jp => asciiPart [0x0E, 0x0F, 0x1B]
    | shiftJis => ShiftJis.decode

end EastAsian

end XmlInspect
