import XmlInspect.Error
import XmlInspect.Source
import XmlInspect.Span.Bind
import XmlInspect.Text.Locator
import XmlInspect.Tree.Build

/-!
# Documents

A document is the tree of a source together with the place of everything in it. The body of the
source is read twice: once for the tree, which finds all that is wrong with the markup, and once for
tokens, which are then bound to the tree. Places are found in bytes of the body and given as lines
and columns of the file.
-/

namespace XmlInspect

/-- A pseudo-attribute of an XML declaration. -/
structure PrologAttribute where
  name : String
  nameRange : TextRange
  /-- The value without its quotes. -/
  value : String
  valueRange : TextRange

/-- The XML declaration. -/
structure Prolog where
  range : TextRange
  /-- Where `<?xml` stands. -/
  opening : TextRange
  /-- Where `?>` stands. -/
  closing : TextRange
  attributes : List PrologAttribute

/-- A tree and where everything in it stands. -/
structure Document where
  tree : Tree
  nodeRanges : Array (Ranges TextRange)
  attrRanges : Array (Ranges TextRange)
  prolog : Option Prolog

/-! ## From bytes of the body to places in the file -/

namespace Source

variable (source : Source)

/-- The place in the file of an offset in the body. -/
def placeOf (locator : Locator) (offset : Nat) : Position :=
  source.toFile (locator.position offset).1

/-- The place in the file of a stretch of the body. -/
def rangeOf (locator : Locator) (span : Span) : Except InvalidRange TextRange :=
  TextRange.between (source.placeOf locator span.start) (source.placeOf locator span.stop)

/-- The place in the file of a pseudo-attribute. -/
def locateAttribute (locator : Locator) (attr : AttributeLexeme) :
    Except InvalidRange PrologAttribute := do
  return {
    name := String.ofList attr.name.text
    nameRange := ← source.rangeOf locator attr.name.span
    value := String.ofList ((attr.value.text.drop 1).dropLast)
    valueRange := ← source.rangeOf locator attr.value.span }

/-- The place in the file of an XML declaration. -/
def locateProlog (locator : Locator) (prolog : PrologSpans) : Except InvalidRange Prolog := do
  return {
    range := ← source.rangeOf locator prolog.whole
    opening := ← source.rangeOf locator prolog.opening
    closing := ← source.rangeOf locator prolog.closing
    attributes := ← prolog.attributes.mapM (source.locateAttribute locator) }

end Source

/-! ## Parsing -/

namespace Document

/-- Replays the tokens of a body against its tree. A token that does not fit is found before
anything that comes after it, even if that is no token at all. -/
def bind (tree : Tree) (body : List Char) : Except InternalFault TreeSpans := do
  let (tokens, fault) := Token.scan body
  let binder ← (tokens.foldlM Binder.take (Binder.initial tree)).mapError .mismatch
  match fault with
  | some fault => throw (.scan fault)
  | none => binder.finish.mapError .mismatch

/-- Gives everything its place in the file. -/
def locate (source : Source) (tree : Tree) (spans : TreeSpans) : Except InvalidRange Document := do
  let locator := Locator.of source.body
  let toRange := source.rangeOf locator
  return {
    tree
    nodeRanges := ← spans.nodes.mapM (Ranges.mapM toRange)
    attrRanges := ← spans.attributes.mapM (Ranges.mapM toRange)
    prolog := ← Ranges.mapPlace (source.locateProlog locator) spans.prolog }

/-- A fault in the markup, with the line of the file on which it is seen. -/
def malformed (source : Source) (fault : Markup.Located Markup.Fault) : Error :=
  .malformed (source.placeOf (Locator.of source.body) fault.offset).line fault.value

/-- Parses a source. -/
def parse (source : Source) (mode : NamespaceMode) : Except Error Document := do
  let tree ← (Tree.build mode source.body).mapError (malformed source)
  let spans ← (bind tree source.body).mapError .internal
  (locate source tree spans).mapError .invalidRange

variable (document : Document)

/-- Where a part of a node stands. -/
def range? (id : NodeId) (slot : Slot) : Option TextRange :=
  document.nodeRanges[id]?.bind (·.get slot)

/-- Where a part of an attribute stands. -/
def attrRange? (id : AttrId) (slot : Slot) : Option TextRange :=
  document.attrRanges[id]?.bind (·.get slot)

end Document

end XmlInspect
