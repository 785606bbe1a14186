import XmlInspect.Span.Mismatch
import XmlInspect.Span.Scan

/-!
# Binding tokens to a tree

The tokens of a text are replayed against its tree. One cursor moves through the tree: it stands
in a node, knows how many children of it were found already, and remembers where it stands in
each of the nodes around. A token has to be of the kind of the next child; an opening tag leads
into that child and a closing tag out of it again. Any disagreement ends the replay, so no part
of the text is ever taken for the wrong node.

Tokens of text that follow each other belong to one node, whose place is known only when another
token comes.
-/

namespace XmlInspect

/-- Where an XML declaration and its pseudo-attributes stand. -/
structure PrologSpans where
  whole : Span
  opening : Span
  closing : Span
  attributes : List AttributeLexeme
  deriving DecidableEq, Repr

/-- Where everything in a tree stands. -/
structure TreeSpans where
  nodes : Array (Ranges Span)
  attributes : Array (Ranges Span)
  prolog : Option PrologSpans

/-- The place of the cursor in one node. -/
structure Visit where
  node : NodeId
  /-- The number of children found so far. -/
  visited : Nat
  deriving DecidableEq, Repr

/-- The state of the replay. -/
structure Binder where
  tree : Tree
  spans : TreeSpans
  /-- Where the cursor stands. -/
  current : Visit
  /-- The nodes around it, the innermost first. -/
  outer : List Visit
  /-- A run of text that may go on. -/
  pending : Option (NodeId × Span)

namespace Binder

/-- Before the first token. -/
def initial (tree : Tree) : Binder where
  tree := tree
  spans :=
    { nodes := Array.replicate tree.nodes.size .empty
      attributes := Array.replicate tree.attributes.size .empty
      prolog := none }
  current := ⟨Tree.root, 0⟩
  outer := []
  pending := none

variable (binder : Binder)

/-! ## Filling slots -/

/-- Says where a part of a node stands, once. -/
def setNode (id : NodeId) (slot : Slot) (span : Span) : Except Mismatch Binder :=
  let ranges := binder.spans.nodes.getD id .empty
  match ranges.get slot with
  | some _ => .error (.nodeBoundTwice slot id)
  | none =>
    let nodes := binder.spans.nodes.setIfInBounds id (ranges.set slot span)
    .ok { binder with spans := { binder.spans with nodes } }

/-- Says where a part of an attribute stands, once. -/
def setAttr (id : AttrId) (slot : Slot) (span : Span) : Except Mismatch Binder :=
  let ranges := binder.spans.attributes.getD id .empty
  match ranges.get slot with
  | some _ => .error (.attrBoundTwice slot id)
  | none =>
    let attributes := binder.spans.attributes.setIfInBounds id (ranges.set slot span)
    .ok { binder with spans := { binder.spans with attributes } }

/-! ## Moving the cursor -/

/-- Moves to the next child, which has to be of the expected kind. -/
def nextChild (expected : Expected) : Except Mismatch (NodeId × Binder) :=
  let visit := binder.current
  match (binder.tree.children visit.node)[visit.visited]? with
  | none => .error (.noChild expected visit.node visit.visited)
  | some id =>
    let kind := (binder.tree.kind? id).getD .document
    if expected.accepts kind then
      .ok (id, { binder with current := { visit with visited := visit.visited + 1 } })
    else
      .error (.otherKind expected visit.node visit.visited kind)

/-- Refuses to leave a node before all its children were found. -/
def allVisited (visit : Visit) : Except Mismatch Unit :=
  let count := (binder.tree.children visit.node).length
  if visit.visited = count then .ok () else .error (.childrenLeft visit.node visit.visited count)

/-- Refuses a tag with another name than its element. -/
def sameName (name : Lexeme) (id : NodeId) : Except Mismatch Unit :=
  let written := ((binder.tree.name? id).map (·.written)).getD ""
  if String.ofList name.text = written then .ok () else .error (.otherName name.text written)

/-! ## Tokens -/

/-- Ends a run of text. -/
def flush : Except Mismatch Binder :=
  match binder.pending with
  | some (id, span) => { binder with pending := none }.setNode id .whole span
  | none => .ok binder

/-- Binds a token of text, which starts a run or carries one on. -/
def bindText (span : Span) : Except Mismatch Binder :=
  match binder.pending with
  | some (id, first) => .ok { binder with pending := some (id, ⟨first.start, span.stop⟩) }
  | none => do
    let (id, next) ← binder.nextChild .text
    return { next with pending := some (id, span) }

/-- Binds a comment or a CDATA section. -/
def bindDelimited (expected : Expected) (token : Token) : Except Mismatch Binder := do
  let (id, next) ← binder.nextChild expected
  let next ← next.setNode id .opening token.opening
  let next ← next.setNode id .closing token.closing
  next.setNode id .whole token.span

/-- Binds the attributes of a tag, each to the first of the attributes left that is written with
the same name. -/
def bindAttributes (id : NodeId) (binder : Binder) :
    List AttrId → List AttributeLexeme → Except Mismatch Binder
  | _, [] => .ok binder
  | left, lexeme :: lexemes =>
    let name := String.ofList lexeme.name.text
    match left.find? fun attr ↦ binder.tree.writtenAttr? attr == some name with
    | none => .error (.unknownAttribute lexeme.name.text id)
    | some attr => do
      let next ← binder.setAttr attr .name lexeme.name.span
      let next ← next.setAttr attr .value lexeme.value.span
      let next ← next.setAttr attr .whole ⟨lexeme.name.start, lexeme.value.stop⟩
      bindAttributes id next (left.erase attr) lexemes

/-- Binds an opening tag. -/
def bindOpenTag (token : Token) (name : Lexeme) (attrs : List AttributeLexeme)
    (selfClosing : Bool) : Except Mismatch Binder := do
  let (id, next) ← binder.nextChild .element
  next.sameName name id
  let next ← next.setNode id .name name.span
  let next ← next.setNode id .opening token.span
  let inTree := next.tree.attributesOf id
  if inTree.length ≠ attrs.length then
    throw (.attributeCount id inTree.length attrs.length)
  let next ← bindAttributes id next inTree attrs
  if selfClosing then
    let next ← next.setNode id .closing token.closing
    next.setNode id .whole token.span
  else
    return { next with current := ⟨id, 0⟩, outer := next.current :: next.outer }

/-- Binds a closing tag. -/
def bindCloseTag (token : Token) (name : Lexeme) : Except Mismatch Binder :=
  match binder.outer with
  | [] => .error .closedAtTop
  | visit :: outer => do
    let id := binder.current.node
    binder.allVisited binder.current
    binder.sameName name id
    match (binder.spans.nodes.getD id .empty).opening with
    | none => throw (.closedUnopened id)
    | some opening =>
      let next ← { binder with current := visit, outer }.setNode id .closing token.span
      next.setNode id .whole ⟨opening.start, token.stop⟩

/-- Binds a declaration, which has to come first. -/
def bindDeclaration (token : Token) (attributes : List AttributeLexeme) :
    Except Mismatch Binder :=
  if token.start ≠ 0 ∨ binder.spans.prolog.isSome then
    .error .lateDeclaration
  else
    let prolog : PrologSpans := ⟨token.span, token.opening, token.closing, attributes⟩
    .ok { binder with spans := { binder.spans with prolog := some prolog } }

/-- Binds a document type declaration. -/
def bindDoctype (token : Token) : Except Mismatch Binder := do
  let (id, next) ← binder.nextChild .doctype
  next.setNode id .whole token.span

/-- Binds the next token. -/
def take (token : Token) : Except Mismatch Binder := do
  match token.form with
  | .text => binder.bindText token.span
  | .declaration attributes => (← binder.flush).bindDeclaration token attributes
  | .instruction => binder.flush
  | .doctype => (← binder.flush).bindDoctype token
  | .comment => (← binder.flush).bindDelimited .comment token
  | .cdata => (← binder.flush).bindDelimited .cdata token
  | .openTag name attributes selfClosing =>
    (← binder.flush).bindOpenTag token name attributes selfClosing
  | .closeTag name => (← binder.flush).bindCloseTag token name

/-! ## The document -/

/-- Binds the document to all between its first and its last part. -/
def bindRoot : Except Mismatch Binder :=
  let whole (id : Option NodeId) : Option Span :=
    id.bind fun id ↦ (binder.spans.nodes.getD id .empty).whole
  let children := binder.tree.children Tree.root
  let prolog := binder.spans.prolog
  match (prolog.map (·.opening)).or (whole children.head?),
    (whole children.getLast?).or (prolog.map (·.closing)) with
  | some first, some last => binder.setNode Tree.root .whole ⟨first.start, last.stop⟩
  | _, _ => .error .noContent

/-- After the last token. -/
def finish : Except Mismatch TreeSpans := do
  let last ← binder.flush
  match last.outer with
  | _ :: _ => throw (.endedInside last.current.node)
  | [] =>
    last.allVisited last.current
    return (← last.bindRoot).spans

end Binder

end XmlInspect
