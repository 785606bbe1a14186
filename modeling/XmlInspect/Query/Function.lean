import XmlInspect.Query.Fault
import XmlInspect.Query.Value
import XmlInspect.Text.Find

/-!
# Functions of queries

A call is judged by its function's name and the number of arguments before any argument is looked
at. Several functions fall back on the context node when called without arguments.
-/

namespace XmlInspect.Query

/-- Where an expression is evaluated: a node and its place among the nodes looked at. -/
structure Context where
  node : QueryNode
  /-- The place of the node, counted from one. -/
  position : Nat
  size : Nat

/-- The functions that queries may call. -/
inductive Function where
  | last
  | position
  | count
  | name
  | localName
  | namespaceUri
  | string
  | concat
  | startsWith
  | endsWith
  | contains
  | substring
  | stringLength
  | normalizeSpace
  | negation
  | truth
  | falsehood
  | boolean
  | number
  | sum
  deriving DecidableEq, Repr

namespace Function

/-- The functions with their names and the least and greatest number of arguments. -/
def table : List (String × Function × Nat × Option Nat) := [
  ("last", last, 0, some 0),
  ("position", position, 0, some 0),
  ("count", count, 1, some 1),
  ("name", name, 0, some 1),
  ("local-name", localName, 0, some 1),
  ("namespace-uri", namespaceUri, 0, some 1),
  ("string", string, 0, some 1),
  ("concat", concat, 2, none),
  ("starts-with", startsWith, 2, some 2),
  ("ends-with", endsWith, 2, some 2),
  ("contains", contains, 2, some 2),
  ("substring", substring, 2, some 3),
  ("string-length", stringLength, 0, some 1),
  ("normalize-space", normalizeSpace, 0, some 1),
  ("not", negation, 1, some 1),
  ("true", truth, 0, some 0),
  ("false", falsehood, 0, some 0),
  ("boolean", boolean, 1, some 1),
  ("number", number, 0, some 1),
  ("sum", sum, 1, some 1)]

/-- The function of a name, if it may be called with so many arguments. -/
def resolve (name : String) (arguments : Nat) : Except Fault Function :=
  match table.lookup name with
  | none => .error (.unknownFunction name)
  | some (function, least, greatest) =>
    if least ≤ arguments ∧ greatest.all (arguments ≤ ·) then .ok function
    else if function = concat then .error .fewConcatArguments
    else .error (.wrongArity name)

/-! ## Texts -/

/-- The characters at positions from `start` on, counted from one, as many as `length` says. Both
are rounded, and compared as numbers. -/
def substringOf (text : String) (start : Float) (length : Option Float) : String :=
  let first := start.round
  let inside (position : Float) : Bool :=
    match length with
    | some length => first ≤ position && position < first + length.round
    | none => first ≤ position && position < 1 / 0
  let chars := text.toList.zipIdx.filter fun (_, index) ↦ inside (Float.ofNat (index + 1))
  String.ofList (chars.map Prod.fst)

/-- The words of a text with one blank between them. -/
def normalizeSpaceOf (text : String) : String :=
  " ".intercalate ((Text.words text.toList).map String.ofList)

/-! ## Calls -/

variable (tree : Tree)

/-- The nodes of an argument. -/
def nodesOf : Value → Except Fault (List QueryNode)
  | .nodes nodes => .ok nodes
  | _ => .error .scalarArgument

/-- The text of an argument, or of the context node if there is none. -/
def textOf (context : Context) : List Value → String
  | argument :: _ => argument.toText tree
  | [] => context.node.text tree

/-- A part of the name of the first node of an argument, or of the context node. -/
def namePart (part : QName → String) (context : Context) (arguments : List Value) :
    Except Fault Value := do
  let node ← match arguments with
    | argument :: _ => do pure (← nodesOf argument).head?
    | [] => pure (some context.node)
  return .string (((node.bind (QueryNode.name? tree)).map part).getD "")

/-- A comparison of two texts. -/
def compareTexts (holds : List Char → List Char → Bool) : List Value → Value
  | a :: b :: _ => .boolean (holds (a.toText tree).toList (b.toText tree).toList)
  | _ => .boolean false

/-- The value of a call whose arguments are as many as the function takes. -/
def apply (context : Context) (function : Function) (arguments : List Value) :
    Except Fault Value :=
  match function, arguments with
  | last, _ => .ok (.number (Float.ofNat context.size))
  | position, _ => .ok (.number (Float.ofNat context.position))
  | count, argument :: _ => do return .number (Float.ofNat (← nodesOf argument).length)
  | name, arguments => namePart tree QName.written context arguments
  | localName, arguments => namePart tree (·.localName) context arguments
  | namespaceUri, arguments => namePart tree (·.namespaceUri.getD "") context arguments
  | string, arguments => .ok (.string (textOf tree context arguments))
  | concat, arguments => .ok (.string (String.join (arguments.map (Value.toText tree))))
  | startsWith, arguments =>
    .ok (compareTexts tree (fun text word ↦ Text.startsWith word text) arguments)
  | endsWith, arguments =>
    .ok (compareTexts tree (fun text word ↦ Text.startsWith word.reverse text.reverse) arguments)
  | contains, arguments =>
    .ok (compareTexts tree (fun text word ↦ Text.occursIn word text) arguments)
  | substring, text :: start :: length =>
    let length := length.head?.map (Value.toNumber tree)
    .ok (.string (substringOf (text.toText tree) (start.toNumber tree) length))
  | stringLength, arguments => .ok (.number (Float.ofNat (textOf tree context arguments).length))
  | normalizeSpace, arguments => .ok (.string (normalizeSpaceOf (textOf tree context arguments)))
  | negation, argument :: _ => .ok (.boolean (!argument.toBoolean))
  | truth, _ => .ok (.boolean true)
  | falsehood, _ => .ok (.boolean false)
  | boolean, argument :: _ => .ok (.boolean argument.toBoolean)
  | number, argument :: _ => .ok (.number (argument.toNumber tree))
  | number, [] => .ok (.number (numberOf (context.node.text tree)))
  | sum, argument :: _ => do
    let terms := (← nodesOf argument).map fun node ↦ numberOf (node.text tree)
    return .number (terms.foldl (· + ·) (-0.0))
  | _, _ => .error .scalarArgument

end Function

end XmlInspect.Query
