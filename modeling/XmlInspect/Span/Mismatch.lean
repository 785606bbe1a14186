import XmlInspect.Span.Ranges
import XmlInspect.Text.Quoted
import XmlInspect.Tree.Basic

/-!
# Mismatches

When the tokens of a text are held against its tree and the two do not agree, a message says how.
Such messages show nodes in full, for the eyes of whoever has to find out.
-/

namespace XmlInspect

/-! ## Showing nodes -/

def showNode (id : NodeId) : String := s!"NodeId({id})"

def showAttr (id : AttrId) : String := s!"AttrId({id})"

/-- Fields of a record in braces. -/
def inBraces (fields : String) : String := " \x7b " ++ fields ++ " \x7d"

def showOption : Option String → String
  | some text => s!"Some({Text.quote text})"
  | none => "None"

def QName.display (name : QName) : String :=
  "QualifiedName" ++ inBraces (s!"prefix: {showOption name.qualifier}, " ++
    s!"local: {Text.quote name.localName}, namespace: {showOption name.namespaceUri}")

def NodeKind.display : NodeKind → String
  | .document => "Document"
  | .element name attributes =>
    let ids := ", ".intercalate (attributes.map showAttr)
    "Element(Element" ++ inBraces s!"name: {name.display}, attributes: [{ids}]" ++ ")"
  | .text content => s!"Text({Text.quote content})"
  | .cdata content => s!"CData({Text.quote content})"
  | .comment content => s!"Comment({Text.quote content})"
  | .doctype name raw =>
    "DocType(DocType" ++ inBraces s!"name: {Text.quote name}, raw: {Text.quote raw}" ++ ")"

def Slot.display : Slot → String
  | .whole => "Node"
  | .opening => "Start"
  | .closing => "End"
  | .name => "Name"
  | .value => "Value"

/-! ## Mismatches -/

/-- What a token says comes next in the tree. -/
inductive Expected where
  | doctype
  | comment
  | cdata
  | text
  | element
  deriving DecidableEq, Repr

namespace Expected

def describe : Expected → String
  | doctype => "document type declaration"
  | comment => "comment"
  | cdata => "CDATA section"
  | text => "text"
  | element => "element"

/-- Whether a node is what is expected. -/
def accepts : Expected → NodeKind → Bool
  | doctype, .doctype _ _ => true
  | comment, .comment _ => true
  | cdata, .cdata _ => true
  | text, .text _ => true
  | element, .element _ _ => true
  | _, _ => false

end Expected

/-- How the tokens of a text disagree with its tree. -/
inductive Mismatch where
  | nodeBoundTwice (slot : Slot) (id : NodeId)
  | attrBoundTwice (slot : Slot) (id : AttrId)
  /-- The tree has no further child where a token calls for one. -/
  | noChild (expected : Expected) (parent : NodeId) (visited : Nat)
  /-- The next child is of another kind. -/
  | otherKind (expected : Expected) (parent : NodeId) (visited : Nat) (found : NodeKind)
  | otherName (scanned : List Char) (written : String)
  | attributeCount (id : NodeId) (inTree inTag : Nat)
  | unknownAttribute (name : List Char) (id : NodeId)
  | closedAtTop
  | closedUnopened (id : NodeId)
  /-- A closing tag or the end of the text comes before all children were found. -/
  | childrenLeft (id : NodeId) (visited count : Nat)
  | lateDeclaration
  | endedInside (id : NodeId)
  | noContent
  deriving DecidableEq, Repr

namespace Mismatch

def message : Mismatch → String
  | nodeBoundTwice slot id => s!"{slot.display} range of {showNode id} bound twice"
  | attrBoundTwice slot id => s!"{slot.display} range of {showAttr id} bound twice"
  | noChild expected parent visited =>
    s!"{expected.describe} found but {showNode parent} has only {visited} children"
  | otherKind expected parent visited found =>
    s!"expected {expected.describe} at child {visited} of {showNode parent}, " ++
      s!"tree has {found.display}"
  | otherName scanned written =>
    s!"tag '{String.ofList scanned}' found where the tree has '{written}'"
  | attributeCount id inTree inTag =>
    s!"{showNode id} has {inTree} attributes but the tag has {inTag}"
  | unknownAttribute name id =>
    s!"attribute '{String.ofList name}' of {showNode id} is not in the tree"
  | closedAtTop => "closing tag found at document level"
  | closedUnopened id => s!"{showNode id} closed before it was opened"
  | childrenLeft id visited count => s!"{showNode id} closed after {visited} of {count} children"
  | lateDeclaration => "XML declaration found after the start of the body"
  | endedInside id => s!"token scan ended inside {showNode id}"
  | noContent => "document has no content to span"

end Mismatch

end XmlInspect
