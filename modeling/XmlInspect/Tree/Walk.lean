import XmlInspect.Tree.Navigate

/-!
# Walks

A walk visits every node in document order. An element is entered before and left after everything
in it; texts, sections and comments are just met. What a visitor does is up to a monad, so one that
fails ends the walk there.

What is still to come is kept on a stack. When an element is entered its children are put there, and
below them that it is to be left. A node is entered once and left at most once, so twice the size of
the tree bounds the recursion.
-/

namespace XmlInspect

/-- What happens on a walk. -/
inductive WalkEvent where
  | enter (id : NodeId)
  | leave (id : NodeId)
  | text (id : NodeId) (content : String)
  | cdata (id : NodeId) (content : String)
  | comment (id : NodeId) (content : String)
  deriving DecidableEq, Repr

/-- What is still to come on a walk: a node with everything in it, or the end of an element. -/
inductive WalkStep where
  | enter (id : NodeId)
  | leave (id : NodeId)
  deriving DecidableEq, Repr

namespace Tree

variable (tree : Tree)

/-- What happens when a walk comes to a node, if it is of a kind that is visited. -/
def arrival? (id : NodeId) : Option WalkEvent :=
  match tree.kind? id with
  | some (.element _ _) => some (.enter id)
  | some (.text content) => some (.text id content)
  | some (.cdata content) => some (.cdata id content)
  | some (.comment content) => some (.comment id content)
  | _ => none

/-- What is to come once a walk has come to a node: its children, and its end if it has one. -/
def pushed (id : NodeId) : List WalkStep :=
  (tree.children id).map .enter ++ if tree.isElement id then [.leave id] else []

/-- What happens in the first `fuel` steps from a stack. -/
def eventsFrom : Nat → List WalkStep → List WalkEvent
  | 0, _ => []
  | _, [] => []
  | fuel + 1, .leave id :: stack => .leave id :: eventsFrom fuel stack
  | fuel + 1, .enter id :: stack =>
    (tree.arrival? id).toList ++ eventsFrom fuel (tree.pushed id ++ stack)

/-- What happens on a walk through the tree. -/
def events : List WalkEvent := tree.eventsFrom (2 * tree.size) [.enter root]

/-- Walks through the tree with a visitor. -/
def walk {m : Type → Type} [Monad m] (visit : WalkEvent → m PUnit) : m PUnit :=
  tree.events.forM visit

end Tree

end XmlInspect
