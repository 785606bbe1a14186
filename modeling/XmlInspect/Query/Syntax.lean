import XmlInspect.Query.Token

/-!
# Syntax of queries

A query is an expression over node-sets, booleans, numbers and strings. Node-sets come from
location paths: steps along an axis, each with a test that nodes have to pass and predicates that
filter the rest.
-/

namespace XmlInspect.Query

/-- A direction in which a step looks from a node. -/
inductive Axis where
  | child
  | descendant
  | descendantOrSelf
  | self
  | parent
  | ancestor
  | ancestorOrSelf
  | attr
  | followingSibling
  | precedingSibling
  deriving DecidableEq, Repr

/-- The axis of a name. -/
def Axis.ofName? (name : String) : Option Axis :=
  if name = "child" then some child
  else if name = "descendant" then some descendant
  else if name = "descendant-or-self" then some descendantOrSelf
  else if name = "self" then some self
  else if name = "parent" then some parent
  else if name = "ancestor" then some ancestor
  else if name = "ancestor-or-self" then some ancestorOrSelf
  else if name = "attribute" then some attr
  else if name = "following-sibling" then some followingSibling
  else if name = "preceding-sibling" then some precedingSibling
  else none

/-- What a node has to be to stay on the path. -/
inductive NodeTest where
  | name (qualifier : Option String) (localName : String)
  /-- Any name, or any name with the qualifier. -/
  | anyName (qualifier : Option String)
  | anyNode
  | text
  | comment
  deriving DecidableEq, Repr

/-- Whether a test can pass only by what a qualifier stands for. -/
def NodeTest.usesNamespaces : NodeTest → Bool
  | name (some _) _ => true
  | anyName (some _) => true
  | _ => false

mutual

/-- An expression. -/
inductive Expr where
  | binary (op : Operator) (left right : Expr)
  | negate (operand : Expr)
  /-- Steps from the document if `absolute`, and from the context otherwise. -/
  | path (absolute : Bool) (steps : List Step)
  /-- A node-set that predicates filter and steps lead on from. -/
  | filter (primary : Expr) (predicates : List Expr) (steps : List Step)
  | literal (text : String)
  | number (value : Float)
  | call (function : String) (arguments : List Expr)

/-- A step of a path. -/
inductive Step where
  | step (axis : Axis) (test : NodeTest) (predicates : List Expr)

end

/-- The step that two slashes stand for. -/
def Step.anyDescendant : Step := .step .descendantOrSelf .anyNode []

mutual

/-- Whether an expression looks at what qualifiers stand for. -/
def Expr.usesNamespaces : Expr → Bool
  | .binary _ left right => left.usesNamespaces || right.usesNamespaces
  | .negate operand => operand.usesNamespaces
  | .path _ steps => stepsUseNamespaces steps
  | .filter primary predicates steps =>
    primary.usesNamespaces || exprsUseNamespaces predicates || stepsUseNamespaces steps
  | .literal _ => false
  | .number _ => false
  | .call function arguments => function == "namespace-uri" || exprsUseNamespaces arguments

def Step.usesNamespaces : Step → Bool
  | .step _ test predicates => test.usesNamespaces || exprsUseNamespaces predicates

def exprsUseNamespaces : List Expr → Bool
  | [] => false
  | expr :: exprs => expr.usesNamespaces || exprsUseNamespaces exprs

def stepsUseNamespaces : List Step → Bool
  | [] => false
  | step :: steps => step.usesNamespaces || stepsUseNamespaces steps

end

end XmlInspect.Query
