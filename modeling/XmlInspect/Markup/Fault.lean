import XmlInspect.Markup.Namespace
import XmlInspect.Markup.Reference

/-!
# Faults of a document

Everything that keeps a document from being well-formed, as far as this library looks. The first
group of faults is found while the text is cut into pieces, the others while the tree is built
from the pieces.
-/

namespace XmlInspect.Markup

/-- Why a document is malformed. -/
inductive Fault where
  /-- `<!` starts no known markup. -/
  | unknownMarkup
  | unclosedInstruction
  | unclosedComment
  | unclosedDoctype
  | unclosedCdata
  | unclosedTag
  | doctypeWithoutName
  | doubleHyphen
  /-- A closing tag with no element open. -/
  | unmatchedClose (name : List Char)
  /-- A closing tag for another element than the innermost open one. -/
  | mismatchedClose (expected found : List Char)
  | attr (fault : AttributeFault)
  | reference (fault : ReferenceFault)
  | scope (fault : NamespaceFault)
  | unboundElement (qualifier : List Char) (name : QName)
  | unboundAttribute (qualifier : List Char) (name : QName)
  | lateDeclaration
  | textOutsideRoot
  | cdataOutsideRoot
  | lateDoctype
  | secondRoot
  | forbiddenChar (c : Char)
  | neverClosed (name : QName)
  | noRoot
  deriving DecidableEq, Repr

namespace Fault

def message : Fault → String
  | unknownMarkup => "syntax error: unknown or missed symbol in markup"
  | unclosedInstruction =>
    "syntax error: processing instruction or xml declaration not closed: " ++
      "`?>` not found before end of input"
  | unclosedComment => "syntax error: comment not closed: `-->` not found before end of input"
  | unclosedDoctype => "syntax error: DOCTYPE not closed: `>` not found before end of input"
  | unclosedCdata => "syntax error: CDATA not closed: `]]>` not found before end of input"
  | unclosedTag => "syntax error: tag not closed: `>` not found before end of input"
  | doctypeWithoutName =>
    "ill-formed document: `<!DOCTYPE>` declaration does not contain a name of a document type"
  | doubleHyphen => "ill-formed document: forbidden string `--` was found in a comment"
  | unmatchedClose name =>
    s!"ill-formed document: close tag `</{String.ofList name}>` does not match any open tag"
  | mismatchedClose expected found =>
    s!"ill-formed document: expected `</{String.ofList expected}>`, " ++
      s!"but `</{String.ofList found}>` was found"
  | attr fault => fault.message
  | reference fault => fault.message
  | scope fault => fault.message
  | unboundElement qualifier name =>
    s!"The prefix \"{String.ofList qualifier}\" for element \"{name.written}\" is not bound"
  | unboundAttribute qualifier name =>
    s!"The prefix \"{String.ofList qualifier}\" for attribute \"{name.written}\" is not bound"
  | lateDeclaration => "The XML declaration is only allowed at the start of the document"
  | textOutsideRoot => "Content is not allowed outside of the root element"
  | cdataOutsideRoot => "CDATA sections are not allowed outside of the root element"
  | lateDoctype => "The document type declaration must precede the root element"
  | secondRoot => "The markup following the root element must be well-formed"
  | forbiddenChar c =>
    "An invalid XML character (Unicode: 0x" ++ String.ofList (Nat.toDigits 16 c.toNat) ++
      ") was found"
  | neverClosed name => s!"Element '{name.written}' is never closed"
  | noRoot => "Premature end of file, no root element"

end Fault

end XmlInspect.Markup
