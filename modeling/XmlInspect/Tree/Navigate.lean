import XmlInspect.Markup.Namespace
import XmlInspect.Tree.Basic

/-!
# Ways through a tree

A sibling is found by the place of a node in its parent's list, and all siblings on one side by
going from each to the next, as ancestors are found by following parents. Descendants are found with
a stack of nodes that are still to be visited. No node is come to twice, so the size of the tree
bounds all recursions.
-/

namespace XmlInspect.Tree

variable (tree : Tree)

/-- At most `fuel` nodes that are come to one after the other. -/
def chain (next : NodeId → Option NodeId) : Nat → NodeId → List NodeId
  | 0, _ => []
  | fuel + 1, id =>
    match next id with
    | some found => found :: chain next fuel found
    | none => []

/-! ## Sideways -/

def nextSibling? (id : NodeId) : Option NodeId := do
  let parent ← tree.parent? id
  (tree.children parent)[tree.indexOf id + 1]?

def previousSibling? (id : NodeId) : Option NodeId := do
  let parent ← tree.parent? id
  if tree.indexOf id = 0 then none else (tree.children parent)[tree.indexOf id - 1]?

/-- The siblings after a node, nearest first. -/
def followingSiblings (id : NodeId) : List NodeId := chain tree.nextSibling? tree.size id

/-- The siblings before a node, nearest first. -/
def precedingSiblings (id : NodeId) : List NodeId := chain tree.previousSibling? tree.size id

/-! ## Up -/

/-- The ancestors of a node, nearest first. -/
def ancestors (id : NodeId) : List NodeId := chain tree.parent? tree.size id

/-- The number of elements around a node. -/
def depth (id : NodeId) : Nat := (tree.ancestors id).countP tree.isElement

/-! ## Down -/

/-- At most `fuel` nodes from a stack. The one on top comes first, and its children take its place
on the stack. -/
def visit : Nat → List NodeId → List NodeId
  | 0, _ => []
  | _, [] => []
  | fuel + 1, id :: stack => id :: visit fuel (tree.children id ++ stack)

/-- The descendants of a node, each before its own descendants. -/
def descendants (id : NodeId) : List NodeId := tree.visit tree.size (tree.children id)

/-- The character data that a node is by itself. -/
def ownText (id : NodeId) : String :=
  match tree.kind? id with
  | some (.text content) => content
  | some (.cdata content) => content
  | _ => ""

/-- The text of a node: what it holds itself, or all character data below it. -/
def textContent (id : NodeId) : String :=
  match tree.kind? id with
  | some (.text content) => content
  | some (.cdata content) => content
  | some (.comment content) => content
  | some (.doctype _ _) => ""
  | _ => String.join ((tree.descendants id).map tree.ownText)

end XmlInspect.Tree
