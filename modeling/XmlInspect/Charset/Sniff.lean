import XmlInspect.Charset.Label
import XmlInspect.Text.Find

/-!
# Sniffing a charset

Content that comes without a charset is asked for one. A byte-order mark decides first, then the
layout of `<?` in UTF-16, then the encoding that an XML declaration near the head names, and
UTF-8 is the answer to all else. A declaration that could be read byte by byte is not UTF-16,
whatever it says, and an unknown label says nothing.
-/

namespace XmlInspect.Charset

/-! ## The declared label -/

def isQuote (c : Char) : Bool := c == '"' || c == '\''

/-- Whether a character may stand in a label after its first letter. -/
def isLabelChar (c : Char) : Bool :=
  c.isAlphanum || c == '.' || c == '_' || c == ':' || c == '-'

/-- The label that a text starting with `encoding` gives. The two quotes need not be alike. -/
def labelAt? (text : List Char) : Option (List Char) := do
  let rest ← Text.stripStart? "encoding".toList text
  let rest ← Text.stripStart? ['='] (rest.dropWhile Text.isBlank)
  match rest.dropWhile Text.isBlank with
  | [] => none
  | opening :: rest =>
    let label := rest.takeWhile isLabelChar
    match label, rest.dropWhile isLabelChar with
    | first :: _, closing :: _ =>
      if isQuote opening && first.isAlpha && isQuote closing then some label else none
    | _, _ => none

/-- The first label that a text gives. -/
def labelIn? : List Char → Option (List Char)
  | [] => none
  | c :: rest => (labelAt? (c :: rest)).or (labelIn? rest)

/-- The label that the first XML declaration of a text gives. -/
def declaredLabel? (text : List Char) : Option (List Char) := do
  let (_, rest) ← Text.cutAt "<?xml".toList text
  let (inside, _) ← Text.cutAt "?>".toList rest
  labelIn? inside

/-! ## The charset of bytes -/

/-- How many bytes are looked at for a declaration. -/
def sniffedBytes : Nat := 1024

/-- The charset that a declared label leads to. -/
def ofDeclared (label : List Char) : Charset :=
  match ofLabel (String.ofList label) with
  | .ok charset => if charset.isUtf16 then utf8 else charset
  | .error _ => utf8

/-- The charset that bytes seem to be written in. -/
def sniff (bytes : List UInt8) : Charset :=
  match bytes with
  | 0xEF :: 0xBB :: 0xBF :: _ => utf8
  | 0xFF :: 0xFE :: _ => utf16le
  | 0xFE :: 0xFF :: _ => utf16be
  | 0x00 :: 0x3C :: 0x00 :: 0x3F :: _ => utf16be
  | 0x3C :: 0x00 :: 0x3F :: 0x00 :: _ => utf16le
  | _ =>
    match declaredLabel? (Utf8.decodeLossy (bytes.take sniffedBytes)) with
    | some label => ofDeclared label
    | none => utf8

end XmlInspect.Charset
