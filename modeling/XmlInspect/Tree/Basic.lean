import XmlInspect.Markup.QName

/-!
# Trees

A tree keeps its nodes in a row, in the order in which they were added, and a node is known by its
place in the row. The links go both ways: a node knows its parent and its place among the parent's
children, and the parent knows its children in order. Attributes are kept in a row of their own and
know the element that carries them. A place has 32 bits: the rows are understood to be shorter than
`2 ^ 32`, and nothing is said about documents with more nodes or attributes.

The document itself is node zero. Nodes are only ever added below a node that is there, so a parent
always comes before its children.
-/

namespace XmlInspect

/-- The place of a node in its tree. -/
abbrev NodeId := Nat

/-- The place of an attribute in its tree. -/
abbrev AttrId := Nat

/-- How names are understood. -/
inductive NamespaceMode where
  /-- Qualifiers are resolved to namespaces. -/
  | aware
  /-- Names are taken as they are written. -/
  | oblivious
  deriving DecidableEq, Repr

/-- What a node is. -/
inductive NodeKind where
  /-- The document, which is the root of its tree. -/
  | document
  | element (name : QName) (attributes : List AttrId)
  /-- Character data with its references replaced. -/
  | text (content : String)
  | cdata (content : String)
  | comment (content : String)
  /-- A document type declaration: the name of the root, and all that follows the keyword. -/
  | doctype (name raw : String)
  deriving DecidableEq, Repr

/-- A node and its links. -/
structure Node where
  kind : NodeKind
  parent : Option NodeId
  /-- The place among the parent's children. -/
  index : Nat
  children : List NodeId
  deriving DecidableEq, Repr

/-- An attribute of an element. -/
structure Attribute where
  name : QName
  /-- The value with its references replaced. -/
  value : String
  /-- The element that carries the attribute. -/
  owner : NodeId
  deriving DecidableEq, Repr

/-- The nodes and attributes of a document. -/
structure Tree where
  mode : NamespaceMode
  nodes : Array Node
  attributes : Array Attribute

namespace Tree

/-! ## Growing a tree -/

/-- The tree of a document without content. -/
def empty (mode : NamespaceMode) : Tree where
  mode := mode
  nodes := #[⟨.document, none, 0, []⟩]
  attributes := #[]

variable (tree : Tree)

/-- The document. -/
def root : NodeId := 0

/-- The number of nodes. -/
def size : Nat := tree.nodes.size

/-- The children of a node, in order. -/
def children (id : NodeId) : List NodeId :=
  match tree.nodes[id]? with
  | some node => node.children
  | none => []

/-- Adds a node as the last child of another. Its place is the former size of the tree. -/
def append (parent : NodeId) (kind : NodeKind) : Tree :=
  let node : Node := ⟨kind, some parent, (tree.children parent).length, []⟩
  let nodes := tree.nodes.modify parent fun node ↦
    { node with children := node.children ++ [tree.size] }
  { tree with nodes := nodes.push node }

/-- Adds an element with its attributes as the last child of a node. -/
def appendElement (parent : NodeId) (name : QName) (attrs : List (QName × String)) : Tree :=
  let owner := tree.size
  let ids := List.range' tree.attributes.size attrs.length
  let added : List Attribute := attrs.map fun (name, value) ↦ ⟨name, value, owner⟩
  { tree.append parent (.element name ids) with attributes := tree.attributes ++ added }

/-! ## Looking at nodes -/

/-- What a node is. -/
def kind? (id : NodeId) : Option NodeKind := tree.nodes[id]?.map (·.kind)

/-- The parent of a node. -/
def parent? (id : NodeId) : Option NodeId := tree.nodes[id]?.bind (·.parent)

/-- The place of a node among the children of its parent. -/
def indexOf (id : NodeId) : Nat :=
  match tree.nodes[id]? with
  | some node => node.index
  | none => 0

/-- The name of an element. -/
def name? (id : NodeId) : Option QName :=
  match tree.kind? id with
  | some (.element name _) => some name
  | _ => none

def isElement (id : NodeId) : Bool := (tree.name? id).isSome

/-- The attributes of an element, in the order of the source. -/
def attributesOf (id : NodeId) : List AttrId :=
  match tree.kind? id with
  | some (.element _ attributes) => attributes
  | _ => []

/-- An attribute by its place. -/
def attr? (id : AttrId) : Option Attribute := tree.attributes[id]?

/-- The name of an attribute as it is written. -/
def writtenAttr? (id : AttrId) : Option String := (tree.attr? id).map (·.name.written)

/-- The attribute of an element that is written with this name. -/
def attributeNamed? (id : NodeId) (written : String) : Option AttrId :=
  (tree.attributesOf id).find? fun attr ↦ tree.writtenAttr? attr == some written

/-- The outermost element. -/
def rootElement? : Option NodeId := (tree.children root).find? tree.isElement

end Tree

end XmlInspect
