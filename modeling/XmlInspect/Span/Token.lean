import XmlInspect.Text.Blank
import XmlInspect.Text.Find

/-!
# Tokens

A second reading of a text that is known to be well-formed, made for one purpose: to tell where
every construct stands. It judges nothing and shares nothing with the reading that builds the
tree, so that the two can be held against each other. Text is divided at references, so several
tokens in a row may belong to one run of text.

A token keeps the characters it was made from, and so do the names and values inside it; where
they stand follows from their offset and their size. The pseudo-attributes of a declaration are
read without regard to where the declaration ends, so a value may reach beyond it.
-/

namespace XmlInspect

/-! ## Spans -/

/-- A stretch of a text in bytes, up to and not including `stop`. -/
@[ext] structure Span where
  start : Nat
  stop : Nat
  deriving DecidableEq, Repr

/-- Some characters and where they stand. -/
structure Lexeme where
  start : Nat
  text : List Char
  deriving DecidableEq, Repr

namespace Lexeme

def stop (lexeme : Lexeme) : Nat := lexeme.start + Text.byteSize lexeme.text

def span (lexeme : Lexeme) : Span := ⟨lexeme.start, lexeme.stop⟩

end Lexeme

/-! ## Tokens -/

/-- A name and a value with its quotes. -/
structure AttributeLexeme where
  name : Lexeme
  value : Lexeme
  deriving DecidableEq, Repr

/-- What a token is, and the lexemes inside it. -/
inductive TokenForm where
  | declaration (attributes : List AttributeLexeme)
  | instruction
  | doctype
  | comment
  | cdata
  /-- Character data or one reference. -/
  | text
  | openTag (name : Lexeme) (attributes : List AttributeLexeme) (selfClosing : Bool)
  | closeTag (name : Lexeme)
  deriving DecidableEq, Repr

/-- A token of a text. -/
structure Token where
  start : Nat
  raw : List Char
  form : TokenForm
  deriving DecidableEq, Repr

namespace Token

def stop (token : Token) : Nat := token.start + Text.byteSize token.raw

def span (token : Token) : Span := ⟨token.start, token.stop⟩

/-- The number of bytes that open a token. -/
def openingSize (token : Token) : Nat :=
  match token.form with
  | .cdata => 9
  | .comment => 4
  | .declaration _ => 5
  | _ => 1

/-- The number of bytes that close a token. -/
def closingSize (token : Token) : Nat :=
  match token.form with
  | .cdata | .comment => 3
  | .declaration _ | .instruction | .openTag _ _ true => 2
  | _ => 1

/-- Where the delimiter stands that opens a token. -/
def opening (token : Token) : Span := ⟨token.start, token.start + token.openingSize⟩

/-- Where the delimiter stands that closes a token. -/
def closing (token : Token) : Span := ⟨token.stop - token.closingSize, token.stop⟩

end Token

/-! ## Faults -/

/-- Why no token can be made. -/
inductive ScanCause where
  | missing (word : String)
  | expectedName
  | expectedTagEnd
  | unterminatedTag
  | expectedEquals
  | expectedQuote
  | unterminatedDoctype
  deriving DecidableEq, Repr

/-- Why and where no token can be made. -/
structure ScanFault where
  offset : Nat
  cause : ScanCause
  deriving DecidableEq, Repr

namespace ScanCause

def message : ScanCause → String
  | missing word => s!"missing '{word}'"
  | expectedName => "expected a name"
  | expectedTagEnd => "expected '>' after closing tag name"
  | unterminatedTag => "unterminated tag"
  | expectedEquals => "expected '=' after attribute name"
  | expectedQuote => "expected quoted attribute value"
  | unterminatedDoctype => "unterminated document type declaration"

end ScanCause

namespace ScanFault

def message (fault : ScanFault) : String :=
  s!"token scan at offset {fault.offset}: {fault.cause.message}"

end ScanFault

end XmlInspect
