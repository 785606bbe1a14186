import XmlInspect.Query.Eval
import XmlInspect.Query.Lex
import XmlInspect.Query.Parse

/-!
# Queries

A query is compiled once and evaluated against any number of trees.
-/

namespace XmlInspect

/-- A compiled query. -/
structure Query where
  /-- The text it was compiled from. -/
  expression : String
  expr : Query.Expr

namespace Query

/-- Compiles the text of a query. -/
def compile (expression : String) : Except Fault Query := do
  return ⟨expression, ← parse (← lex expression.toList)⟩

/-- Whether the query looks at what qualifiers stand for. -/
def usesNamespaces (query : Query) : Bool := query.expr.usesNamespaces

/-- The value of the query at a node. -/
def evaluate (query : Query) (tree : Tree) (context : NodeId) : Except Fault Value :=
  eval tree ⟨.node context, 1, 1⟩ query.expr

/-- The nodes that the query selects from a node. -/
def select (query : Query) (tree : Tree) (context : NodeId) : Except Fault (List QueryNode) := do
  match ← query.evaluate tree context with
  | .nodes nodes => return nodes
  | _ => throw .selectsNothing

end Query

end XmlInspect
