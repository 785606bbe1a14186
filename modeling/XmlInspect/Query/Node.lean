import XmlInspect.Tree.Navigate

/-!
# Nodes of queries

A query selects nodes and attributes alike. Their common order is that of the document: an
attribute comes after the element that carries it and before everything in the element.
-/

namespace XmlInspect.Query

/-- What a query can select. -/
inductive QueryNode where
  | node (id : NodeId)
  | attr (id : AttrId)
  deriving DecidableEq, Repr

variable (tree : Tree)

namespace QueryNode

/-- The element that carries an attribute. -/
def ownerOf (id : AttrId) : NodeId :=
  match tree.attr? id with
  | some found => found.owner
  | none => Tree.root

/-- The place in document order. -/
def orderKey : QueryNode → Nat × Nat
  | node id => (id, 0)
  | attr id => (ownerOf tree id, id + 1)

/-- Whether one node does not come after another. -/
def notAfter (a b : QueryNode) : Bool :=
  let x := a.orderKey tree
  let y := b.orderKey tree
  x.1 < y.1 || (x.1 == y.1 && x.2 ≤ y.2)

/-- The text that a node stands for. -/
def text : QueryNode → String
  | node id => tree.textContent id
  | attr id => ((tree.attr? id).map (·.value)).getD ""

/-- The name of an element or attribute. -/
def name? : QueryNode → Option QName
  | node id => tree.name? id
  | attr id => (tree.attr? id).map (·.name)

end QueryNode

/-- The nodes in document order, each once. -/
def documentOrder (nodes : List QueryNode) : List QueryNode :=
  (nodes.mergeSort (QueryNode.notAfter tree)).eraseReps

end XmlInspect.Query
