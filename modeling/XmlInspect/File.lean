import XmlInspect.Document

/-!
# Files

What the rules look at: a source that could be parsed. Its tree with namespaces is always there. The
tree that takes names as they are written is built when somebody asks for it.
-/

namespace XmlInspect

/-- A source that could be parsed. -/
structure XmlFile where
  source : Source
  /-- The document with namespaces. -/
  document : Document

namespace XmlFile

/-- Parses a source. -/
def parse (source : Source) : Except Error XmlFile := do
  return ⟨source, ← Document.parse source .aware⟩

variable (file : XmlFile)

def uri : String := file.source.uri

/-- The document as names are to be understood. -/
def documentIn : NamespaceMode → Except Error Document
  | .aware => .ok file.document
  | .oblivious => Document.parse file.source .oblivious

end XmlFile

end XmlInspect
