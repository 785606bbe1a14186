import XmlInspect.Query.Node
import XmlInspect.Query.Syntax
import XmlInspect.Tree.Qualifier

/-!
# Steps along an axis

From a node, an axis lists nodes by their nearness. An attribute has ancestors, and nothing else
around or below it. Namespace declarations are no attributes in the eyes of a query.

Names are tested in one of two ways. A tree that knows no namespaces compares them as they are
written. A tree that does compares local names and namespaces, where the qualifier of the test
stands for whatever it is bound to at the node in question; an attribute without qualifier is in no
namespace.
-/

namespace XmlInspect.Query

variable (tree : Tree)

/-! ## Axes -/

/-- The nodes along an axis from an attribute, nearest first. -/
def alongFromAttr (axis : Axis) (id : AttrId) : List QueryNode :=
  let owner := QueryNode.ownerOf tree id
  match axis with
  | .self => [.attr id]
  | .parent => [.node owner]
  | .ancestor => (owner :: tree.ancestors owner).map .node
  | .ancestorOrSelf => .attr id :: (owner :: tree.ancestors owner).map .node
  | _ => []

/-- Whether an attribute declares a namespace. -/
def isDeclaration (id : AttrId) : Bool :=
  match tree.attr? id with
  | some found => found.name.declaresNamespace
  | none => false

/-- The nodes along an axis from a node of the tree, nearest first. -/
def alongFromNode (axis : Axis) (id : NodeId) : List QueryNode :=
  match axis with
  | .child => (tree.children id).map .node
  | .descendant => (tree.descendants id).map .node
  | .descendantOrSelf => (id :: tree.descendants id).map .node
  | .self => [.node id]
  | .parent => (tree.parent? id).toList.map .node
  | .ancestor => (tree.ancestors id).map .node
  | .ancestorOrSelf => (id :: tree.ancestors id).map .node
  | .attr => ((tree.attributesOf id).filter (!isDeclaration tree ·)).map .attr
  | .followingSibling => (tree.followingSiblings id).map .node
  | .precedingSibling => (tree.precedingSiblings id).map .node

/-- The nodes along an axis, nearest first. -/
def along (axis : Axis) : QueryNode → List QueryNode
  | .node id => alongFromNode tree axis id
  | .attr id => alongFromAttr tree axis id

/-! ## Tests -/

/-- Whether a name passes a test as it is written. -/
def writtenMatches (test : NodeTest) (name : QName) : Bool :=
  match test with
  | .name qualifier localName => name.qualifier == qualifier && name.localName == localName
  | .anyName none => true
  | .anyName qualifier => name.qualifier == qualifier
  | _ => false

/-- What the qualifier of a test stands for at a node. -/
def expectedNamespace (scope : NodeId) (qualifier : Option String) : Option String :=
  qualifier.bind (tree.resolveQualifier? scope)

/-- Whether a name passes a test by its namespace. -/
def resolvedMatches (test : NodeTest) (name : QName) (scope : NodeId) (namespaceUri : Option String) :
    Bool :=
  match test with
  | .name qualifier localName =>
    name.localName == localName && expectedNamespace tree scope qualifier == namespaceUri
  | .anyName none => true
  | .anyName qualifier => expectedNamespace tree scope qualifier == namespaceUri
  | _ => false

/-- Whether the name of an element passes a test. -/
def elementMatches (test : NodeTest) (id : NodeId) : Bool :=
  match tree.name? id with
  | none => false
  | some name =>
    match tree.mode with
    | .oblivious => writtenMatches test name
    | .aware => resolvedMatches tree test name id name.namespaceUri

/-- Whether the name of an attribute passes a test. -/
def attrMatches (test : NodeTest) (id : AttrId) : Bool :=
  match tree.attr? id with
  | none => false
  | some found =>
    match tree.mode with
    | .oblivious => writtenMatches test found.name
    | .aware =>
      let namespaceUri := if found.name.qualifier.isNone then none else found.name.namespaceUri
      resolvedMatches tree test found.name found.owner namespaceUri

/-- Whether a node that an axis has led to passes a test. An attribute has a name only where
attributes are looked for. -/
def passes (test : NodeTest) (axis : Axis) (candidate : QueryNode) : Bool :=
  match test, candidate with
  | .anyNode, _ => true
  | .text, .node id =>
    match tree.kind? id with
    | some (.text _) | some (.cdata _) => true
    | _ => false
  | .comment, .node id =>
    match tree.kind? id with
    | some (.comment _) => true
    | _ => false
  | .text, .attr _ | .comment, .attr _ => false
  | test, .attr id => (axis == .attr || axis == .self) && attrMatches tree test id
  | test, .node id => elementMatches tree test id

/-- The nodes that a step finds from a node before its predicates, nearest first. -/
def candidates (axis : Axis) (test : NodeTest) (node : QueryNode) : List QueryNode :=
  (along tree axis node).filter (passes tree test axis)

end XmlInspect.Query
