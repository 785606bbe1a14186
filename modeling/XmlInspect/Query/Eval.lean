import XmlInspect.Query.Along
import XmlInspect.Query.Function

/-!
# Evaluating queries

A step is taken from every node separately: the nodes along its axis that pass its test are
filtered by its predicates, each of which sees the position of a node among those that were left by
the predicates before. The results for all nodes are then put in document order. So the positions
that a predicate sees depend on one node alone and never on the others.

The right side of `and` and `or` is evaluated only if the left side does not decide.
-/

namespace XmlInspect.Query

variable (tree : Tree)

/-- The nodes that a predicate keeps, from the one at a place on. A number keeps the node at that
place, anything else keeps nodes by its truth value. -/
def keepFrom (value : Context → Except Fault Value) (size index : Nat) :
    List QueryNode → Except Fault (List QueryNode)
  | [] => .ok []
  | node :: nodes => do
    let keep ← match ← value ⟨node, index + 1, size⟩ with
      | .number n => pure (sameNumber n (Float.ofNat (index + 1)))
      | other => pure other.toBoolean
    let kept ← keepFrom value size (index + 1) nodes
    return if keep then node :: kept else kept

/-- The nodes that a predicate keeps. -/
def keep (value : Context → Except Fault Value) (nodes : List QueryNode) :
    Except Fault (List QueryNode) :=
  keepFrom value nodes.length 0 nodes

/-- The result of an arithmetic operator. -/
def arithmetic (op : Operator) (a b : Float) : Float :=
  match op with
  | .plus => a + b
  | .minus => a - b
  | .multiply => a * b
  | .div => a / b
  | _ => Number.remainder a b

/-- The value of an operator whose both sides are evaluated. -/
def combine (op : Operator) (left right : Value) : Except Fault Value :=
  match op with
  | .union =>
    match left, right with
    | .nodes a, .nodes b => .ok (.nodes (documentOrder tree (a ++ b)))
    | _, _ => .error .unionOfScalar
  | .eq | .notEq | .lt | .ltEq | .gt | .gtEq => .ok (.boolean (valuesCompare tree op left right))
  | _ => .ok (.number (arithmetic op (left.toNumber tree) (right.toNumber tree)))

/-- Collects what a step finds from each of several nodes. -/
def collect (find : QueryNode → Except Fault (List QueryNode)) :
    List QueryNode → Except Fault (List QueryNode)
  | [] => .ok []
  | node :: nodes => do
    let first ← find node
    return first ++ (← collect find nodes)

mutual

/-- The value of an expression in a context. -/
def eval (context : Context) : Expr → Except Fault Value
  | .literal text => .ok (.string text)
  | .number value => .ok (.number value)
  | .negate operand => do return .number (-(← eval context operand).toNumber tree)
  | .binary .or left right => do
    if (← eval context left).toBoolean then return .boolean true
    return .boolean (← eval context right).toBoolean
  | .binary .and left right => do
    if (← eval context left).toBoolean then return .boolean (← eval context right).toBoolean
    return .boolean false
  | .binary op left right => do
    let left ← eval context left
    let right ← eval context right
    combine tree op left right
  | .call name arguments => do
    let function ← Function.resolve name arguments.length
    function.apply tree context (← evalAll context arguments)
  | .path absolute steps => do
    let start := if absolute then .node Tree.root else context.node
    return .nodes (← takeSteps [start] steps)
  | .filter primary predicates steps => do
    match ← eval context primary with
    | .nodes nodes => return .nodes (← takeSteps (← keepAll nodes predicates) steps)
    | _ => throw .filterOfScalar

/-- The values of several expressions, one after the other. -/
def evalAll (context : Context) : List Expr → Except Fault (List Value)
  | [] => .ok []
  | expr :: exprs => do
    let value ← eval context expr
    return value :: (← evalAll context exprs)

/-- The nodes that several predicates keep, one after the other. -/
def keepAll (nodes : List QueryNode) : List Expr → Except Fault (List QueryNode)
  | [] => .ok nodes
  | predicate :: predicates => do
    keepAll (← keep (fun context ↦ eval context predicate) nodes) predicates

/-- The nodes that several steps lead to, one after the other. -/
def takeSteps (nodes : List QueryNode) : List Step → Except Fault (List QueryNode)
  | [] => .ok nodes
  | step :: steps => do takeSteps (← takeStep nodes step) steps

/-- The nodes that a step leads to, in document order. -/
def takeStep (nodes : List QueryNode) : Step → Except Fault (List QueryNode)
  | .step axis test predicates => do
    let found ← collect (fun node ↦ keepAll (candidates tree axis test node) predicates) nodes
    return documentOrder tree found

end

end XmlInspect.Query
