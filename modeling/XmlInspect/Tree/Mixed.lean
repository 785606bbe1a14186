import XmlInspect.Text.Blank
import XmlInspect.Tree.Navigate

/-!
# Mixed content

An element that holds text beside blanks may not be laid out freely, and neither may anything in
it: every blank there counts.
-/

namespace XmlInspect.Tree

variable (tree : Tree)

/-- Whether a node is character data that is not all blank. -/
def isVisibleText (id : NodeId) : Bool :=
  match tree.kind? id with
  | some (.text content) | some (.cdata content) => content.toList.any (!Text.isBlank ·)
  | _ => false

/-- Whether a node directly holds text that is not all blank. -/
def holdsText (id : NodeId) : Bool := (tree.children id).any tree.isVisibleText

/-- Whether a node is, or is inside, an element that directly holds text. -/
def inMixedContent (id : NodeId) : Bool :=
  (id :: tree.ancestors id).any fun node ↦ tree.isElement node && tree.holdsText node

/-- The elements directly inside a node. -/
def elementChildren (id : NodeId) : List NodeId := (tree.children id).filter tree.isElement

end XmlInspect.Tree
