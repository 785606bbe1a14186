import XmlInspect.Number.Decimal
import XmlInspect.Number.Shortest
import XmlInspect.Query.Node
import XmlInspect.Query.Token
import XmlInspect.Text.Blank

/-!
# Values of queries

A value is a node-set, a boolean, a number or a string, and each can be read as any of the last
three. A node-set is read as a string through its first node.

Numbers are compared by two questions, whether the one is at most the other and the other way
round. Both fail if one of them is no number. Asked this way, to swap the operands is to swap the
answers.
-/

namespace XmlInspect.Query

/-- The value of a query. -/
inductive Value where
  /-- Nodes in document order, each once. -/
  | nodes (nodes : List QueryNode)
  | boolean (value : Bool)
  | number (value : Float)
  | string (value : String)

/-! ## Numbers in texts -/

/-- The number that a text spells: an optional minus sign and a decimal, with blanks around. -/
def numberOf (text : String) : Float :=
  match Text.trim Text.isBlank text.toList with
  | '-' :: digits => ((Number.readDecimal? digits).map (- ·)).getD Number.nan
  | digits => (Number.readDecimal? digits).getD Number.nan

namespace Value

variable (tree : Tree)

/-! ## Readings -/

/-- A value as a truth value. -/
def toBoolean : Value → Bool
  | nodes found => !found.isEmpty
  | boolean value => value
  | number value => value != 0 && !value.isNaN
  | string value => !value.isEmpty

/-- A value as a text. -/
def toText : Value → String
  | nodes found => ((found.head?).map (QueryNode.text tree)).getD ""
  | boolean value => if value then "true" else "false"
  | number value => Number.text value
  | string value => value

/-- A value as a number. -/
def toNumber : Value → Float
  | number value => value
  | boolean value => if value then 1 else 0
  | nodes found => numberOf ((nodes found).toText tree)
  | string value => numberOf value

end Value

/-! ## Comparing -/

/-- How two numbers compare, if they do. -/
def order? (a b : Float) : Option Ordering :=
  match decide (a ≤ b), decide (b ≤ a) with
  | true, true => some .eq
  | true, false => some .lt
  | false, true => some .gt
  | false, false => none

/-- Whether two numbers are equal. -/
def sameNumber (a b : Float) : Bool := order? a b == some .eq

/-- Whether a comparison of numbers holds. Nothing is unequal like what is no number. -/
def numbersCompare (op : Operator) (a b : Float) : Bool :=
  match order? a b with
  | none => op == .notEq
  | some order =>
    match op with
    | .eq => order == .eq
    | .notEq => order != .eq
    | .lt => order == .lt
    | .ltEq => order != .gt
    | .gt => order == .gt
    | .gtEq => order != .lt
    | _ => false

/-- Whether a comparison of texts holds. Order is that of the numbers they spell. -/
def textsCompare (op : Operator) (a b : String) : Bool :=
  match op with
  | .eq => a == b
  | .notEq => a != b
  | op => numbersCompare op (numberOf a) (numberOf b)

variable (tree : Tree)

/-- Whether two values are equal when none is a node-set: as truth values if one is one, else as
numbers if one is one, else as texts. -/
def scalarsEqual (a b : Value) : Bool :=
  match a, b with
  | .boolean _, _ | _, .boolean _ => a.toBoolean == b.toBoolean
  | .number _, _ | _, .number _ => sameNumber (a.toNumber tree) (b.toNumber tree)
  | _, _ => a.toText tree == b.toText tree

/-- Whether a comparison holds when no side is a node-set. -/
def scalarsCompare (op : Operator) (a b : Value) : Bool :=
  match op with
  | .eq => scalarsEqual tree a b
  | .notEq => !scalarsEqual tree a b
  | op => numbersCompare op (a.toNumber tree) (b.toNumber tree)

/-- Whether a comparison holds. With a node-set on a side it is enough that it holds for one of
its nodes, unless the other side is a truth value: then the set counts as one. -/
def valuesCompare (op : Operator) (a b : Value) : Bool :=
  match a, b with
  | .nodes left, .nodes right =>
    left.any fun x ↦ right.any fun y ↦ textsCompare op (x.text tree) (y.text tree)
  | .nodes nodes, .boolean value =>
    scalarsCompare tree op (.boolean !nodes.isEmpty) (.boolean value)
  | .boolean value, .nodes nodes =>
    scalarsCompare tree op (.boolean value) (.boolean !nodes.isEmpty)
  | .nodes nodes, other =>
    nodes.any fun node ↦ scalarsCompare tree op (.string (node.text tree)) other
  | other, .nodes nodes =>
    nodes.any fun node ↦ scalarsCompare tree op other (.string (node.text tree))
  | a, b => scalarsCompare tree op a b

end XmlInspect.Query
