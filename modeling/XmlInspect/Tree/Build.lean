import XmlInspect.Markup.Entity
import XmlInspect.Markup.Piece
import XmlInspect.Tree.Basic

/-!
# Building trees

The pieces of a text are taken one by one. An opening tag becomes an element below the innermost
open one and is opened in turn, a closing tag has to name the innermost open element, and all else
becomes a leaf. A document has one root, nothing but blanks around it, and at most one document
type declaration before it.

A fault is reported at one of three places: the start of the piece, its end, or, for namespace
declarations, the start of the text. When a tag has several faults the first of these decides:
its namespace declarations, its qualifier, its attributes one after the other, a second root,
and last the characters of its attributes.
-/

namespace XmlInspect.Tree

open Markup

/-! ## Characters -/

/-- Whether a document may hold a character at all. -/
def isXmlChar (c : Char) : Bool :=
  let n := c.toNat
  n == 0x9 || n == 0xA || n == 0xD || (0x20 ≤ n && n ≤ 0xD7FF) || (0xE000 ≤ n && n ≤ 0xFFFD)
    || 0x10000 ≤ n

/-- Refuses a text with a character that no document may hold. -/
def checkChars (text : List Char) : Except Fault Unit :=
  match text.find? (!isXmlChar ·) with
  | some c => .error (.forbiddenChar c)
  | none => .ok ()

/-! ## The state of building -/

/-- An open element. -/
structure Frame where
  node : NodeId
  /-- The name that the closing tag has to repeat. -/
  name : List Char
  /-- The bindings in force outside the element. -/
  outer : Scope

/-- What was built from the pieces so far. -/
structure Builder where
  tree : Tree
  /-- The open elements, the innermost first. -/
  frames : List Frame
  /-- The bindings in force. -/
  scope : Scope
  entities : List Entity
  rootSeen : Bool
  doctypeSeen : Bool

namespace Builder

/-- Before the first piece. -/
def initial (mode : NamespaceMode) : Builder where
  tree := .empty mode
  frames := []
  scope := .initial
  entities := []
  rootSeen := false
  doctypeSeen := false

variable (builder : Builder)

/-- Where the next node belongs. -/
def parent : NodeId :=
  match builder.frames with
  | frame :: _ => frame.node
  | [] => Tree.root

/-- Adds a node that has no content of its own to come. -/
def appendLeaf (kind : NodeKind) : Builder :=
  { builder with tree := builder.tree.append builder.parent kind }

/-! ## Names and attributes -/

/-- The qualifier of a written name. -/
def qualifierOf (written : List Char) : Option (List Char) :=
  (Text.cutAt [':'] written).map Prod.fst

/-- The name of an element in a scope. -/
def elementName (mode : NamespaceMode) (scope : Scope) (written : List Char) :
    Except Fault QName :=
  let name := QName.ofWritten written
  match mode with
  | .oblivious => .ok name
  | .aware =>
    match scope.resolve (qualifierOf written) with
    | .bound uri => .ok { name with namespaceUri := some (String.ofList uri) }
    | .unbound => .ok name
    | .unknown qualifier => .error (.unboundElement qualifier name)

/-- The name of an attribute in a scope. Without a qualifier it has no namespace, unless it is a
namespace declaration itself. -/
def attributeName (mode : NamespaceMode) (scope : Scope) (written : List Char) :
    Except Fault QName :=
  let name := QName.ofWritten written
  match mode with
  | .oblivious => .ok name
  | .aware =>
    if name.declaresNamespace then
      .ok { name with namespaceUri := some xmlnsNamespace }
    else
      match qualifierOf written with
      | none => .ok name
      | some qualifier =>
        match scope.resolve (some qualifier) with
        | .bound uri => .ok { name with namespaceUri := some (String.ofList uri) }
        | .unbound => .ok name
        | .unknown qualifier => .error (.unboundAttribute qualifier name)

/-- Replaces references by the declared entities. -/
def expandReferences (text : List Char) : Except Fault (List Char) :=
  match unescape (Entity.lookup builder.entities) text with
  | .ok text => .ok text
  | .error fault => .error (.reference fault)

/-- The attributes of a tag, one after the other, up to the first fault. -/
def readAttributes (scope : Scope) :
    List RawAttribute × Option AttributeFault → Except Fault (List (QName × List Char))
  | ([], none) => .ok []
  | ([], some fault) => .error (.attr fault)
  | (raw :: raws, fault) => do
    let name ← attributeName builder.tree.mode scope raw.key
    let value ← builder.expandReferences raw.value
    return (name, value) :: (← readAttributes scope (raws, fault))

/-! ## One piece -/

/-- Reports a fault at an offset. -/
def reportAt {α : Type} (offset : Nat) : Except Fault α → Except (Located Fault) α
  | .ok a => .ok a
  | .error fault => .error ⟨offset, fault⟩

/-- Adds an element. -/
def addElement (name : QName) (attrs : List (QName × List Char)) : Except Fault Builder := do
  if builder.frames.isEmpty && builder.rootSeen then
    throw .secondRoot
  attrs.forM fun (_, value) ↦ checkChars value
  let attrs := attrs.map fun (name, value) ↦ (name, String.ofList value)
  return { builder with
    tree := builder.tree.appendElement builder.parent name attrs
    rootSeen := true }

/-- Takes an opening tag. -/
def takeOpenTag (start stop : Nat) (content : List Char) (selfClosing : Bool) :
    Except (Located Fault) Builder := do
  let written := content.takeWhile (!Text.isXmlBlank ·)
  let rest := content.dropWhile (!Text.isXmlBlank ·)
  let raws (unique : Bool) := RawAttribute.readAll unique [] (Text.byteSize written) rest
  let scope ← match builder.scope.enter (raws false).1 with
    | .ok scope => pure scope
    | .error fault => throw ⟨0, .scope fault⟩
  let name ← reportAt stop (elementName builder.tree.mode scope written)
  let attrs ← reportAt stop (builder.readAttributes scope (raws true))
  let next ← reportAt start (builder.addElement name attrs)
  if selfClosing then
    return next
  else
    let frame : Frame := ⟨builder.tree.size, written, builder.scope⟩
    return { next with frames := frame :: builder.frames, scope }

/-- Takes a closing tag. -/
def takeCloseTag (name : List Char) : Except Fault Builder :=
  match builder.frames with
  | [] => .error (.unmatchedClose name)
  | frame :: frames =>
    if frame.name = name then
      .ok { builder with frames, scope := frame.outer }
    else
      .error (.mismatchedClose frame.name name)

/-- Takes a run of text. -/
def takeText (start stop : Nat) (raw : List Char) : Except (Located Fault) Builder := do
  let text ← reportAt stop (builder.expandReferences raw)
  if builder.frames.isEmpty && !text.all Text.isXmlBlank then
    throw ⟨start, .textOutsideRoot⟩
  reportAt start (checkChars text)
  return builder.appendLeaf (.text (String.ofList text))

/-- Takes a CDATA section. -/
def takeCdata (content : List Char) : Except Fault Builder := do
  if builder.frames.isEmpty then
    throw .cdataOutsideRoot
  checkChars content
  return builder.appendLeaf (.cdata (String.ofList content))

/-- Takes a comment. -/
def takeComment (content : List Char) : Except Fault Builder := do
  checkChars content
  return builder.appendLeaf (.comment (String.ofList content))

/-- The name in a document type declaration: the first word, where a bracket also ends words. -/
def doctypeName (content : List Char) : List Char :=
  ((Text.wordsBy (fun c ↦ Text.isBlank c || c == '[') content).head?).getD []

/-- Takes a document type declaration. -/
def takeDoctype (content : List Char) : Except Fault Builder := do
  if builder.rootSeen || builder.doctypeSeen then
    throw .lateDoctype
  let name := String.ofList (doctypeName content)
  return { builder with
    tree := builder.tree.append Tree.root (.doctype name (String.ofList content))
    entities := Entity.declared content
    doctypeSeen := true }

/-- Takes the next piece. -/
def take (piece : Piece) : Except (Located Fault) Builder :=
  match piece.form with
  | .text => builder.takeText piece.start piece.stop piece.raw
  | .openTag content selfClosing =>
    builder.takeOpenTag piece.start piece.stop content selfClosing
  | .closeTag name => reportAt piece.start (builder.takeCloseTag name)
  | .comment content => reportAt piece.start (builder.takeComment content)
  | .cdata content => reportAt piece.start (builder.takeCdata content)
  | .doctype content => reportAt piece.start (builder.takeDoctype content)
  | .declaration =>
    if piece.start = 0 then .ok builder else .error ⟨piece.start, .lateDeclaration⟩
  | .instruction => .ok builder

/-- The tree after the last piece. -/
def finish : Except Fault Tree :=
  match builder.frames with
  | frame :: _ => .error (.neverClosed (QName.ofWritten frame.name))
  | [] => if builder.rootSeen then .ok builder.tree else .error .noRoot

end Builder

/-! ## Whole texts -/

/-- Builds the tree of a body. A byte-order mark at its head is skipped and not counted in the
offsets of faults. -/
def build (mode : NamespaceMode) (body : List Char) : Except (Located Fault) Tree := do
  let text := if body.head? = some Text.byteOrderMark then body.drop 1 else body
  let (pieces, fault) := Piece.cutAll 0 text
  let builder ← pieces.foldlM Builder.take (.initial mode)
  match fault with
  | some fault => throw fault
  | none => Builder.reportAt (Text.byteSize body) builder.finish

end XmlInspect.Tree
