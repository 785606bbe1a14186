import XmlInspect.Pattern.Basic
import XmlInspect.Pattern.Table

/-!
# Shapes of patterns

Before a pattern is used it is brought into a simpler form that is found in the same texts. Single
characters and sets with one member are plain texts, texts in a row are one text, nothing is left of
what is empty in a row, alternatives that are sets are one set, and what all alternatives start with
is taken out of them. The simpler form is what the size of a pattern is counted on.

A row of shapes and the alternatives of a choice lean to the right, and no member of one is itself a
row or a choice. `Shape.parts` and `Shape.branches` give the members as lists.
-/

namespace XmlInspect

open Text (RangeTable)

/-- The simpler form of a pattern. -/
inductive Shape where
  | empty
  /-- A text of at least one character. -/
  | literal (text : List Char)
  /-- Alternatives that are all plain texts, in the order in which they are preferred. -/
  | words (texts : List (List Char))
  /-- One character of a set that does not have exactly one. -/
  | chars (table : RangeTable)
  | condition (anchor : Anchor)
  | capture (inner : Shape)
  | seq (first rest : Shape)
  | alt (first rest : Shape)
  | repeated (inner : Shape) (least : Nat) (greatest : Option Nat)
  deriving DecidableEq, Repr

namespace Shape

/-- One character of a set. -/
def ofTable : RangeTable → Shape
  | [(low, high)] => if low = high then literal [Char.ofNat low] else chars [(low, high)]
  | table => chars table

/-! ## Rows -/

/-- The members of a row. -/
def parts : Shape → List Shape
  | empty => []
  | seq first rest => first :: rest.parts
  | shape => [shape]

/-- Puts a text in front of a row. -/
def prepend (text : List Char) : Shape → Shape
  | empty => literal text
  | literal next => literal (text ++ next)
  | seq (literal next) rest => seq (literal (text ++ next)) rest
  | rest => seq (literal text) rest

/-- One shape after another. -/
def append : Shape → Shape → Shape
  | empty, second => second
  | literal text, second => second.prepend text
  | seq first rest, second => first.append (rest.append second)
  | first, empty => first
  | first, second => seq first second

/-- The row of some members. -/
def ofParts (members : List Shape) : Shape := members.foldr append empty

/-! ## Choices -/

/-- The alternatives of a choice. -/
def branches : Shape → List Shape
  | words texts => texts.map literal
  | alt first rest => first :: rest.branches
  | shape => [shape]

/-- The text that a shape is. -/
def text? : Shape → Option (List Char)
  | literal text => some text
  | _ => none

/-- The set of a shape that is one character. -/
def letter? : Shape → Option RangeTable
  | literal [c] => some [(c.toNat, c.toNat)]
  | _ => none

/-- The set of a shape that is one character of a set. -/
def table? : Shape → Option RangeTable
  | chars table => some table
  | _ => none

/-- The choice between some alternatives that are not all texts. -/
def ofBranches : List Shape → Shape
  | [] => chars []
  | [shape] => shape
  | shape :: shapes => alt shape (ofBranches shapes)

/-- The choice between some alternatives, in which nothing is taken out. -/
def join (shapes : List Shape) : Shape :=
  let branches := shapes.flatMap branches
  match branches.mapM letter?, branches.mapM table?, branches.mapM text? with
  | some tables, _, _ | none, some tables, _ => ofTable (RangeTable.normal tables.flatten)
  | none, none, some texts => if texts.length = 1 then ofBranches branches else words texts
  | none, none, none => ofBranches branches

/-- What two rows start with in common. -/
def commonStart : List Shape → List Shape → List Shape
  | a :: first, b :: second => if a = b then a :: commonStart first second else []
  | _, _ => []

/-- The choice between some alternatives. What they start with in common is taken out, if all of
them are rows. -/
def choose : List Shape → Shape
  | [shape] => shape
  | shapes =>
    let rows := (shapes.flatMap branches).map parts
    let common := rows.foldl commonStart (rows.headD [])
    if rows.all (2 ≤ ·.length) ∧ common ≠ [] then
      ofParts (common ++ [join (rows.map fun row ↦ ofParts (row.drop common.length))])
    else
      join shapes

/-! ## Repetitions -/

/-- Whether every text of a shape is empty. -/
def isWeightless : Shape → Bool
  | empty | condition _ => true
  | literal _ | words _ | chars _ => false
  | capture inner | repeated inner _ _ => inner.isWeightless
  | seq first rest | alt first rest => first.isWeightless && rest.isWeightless

/-- Repeats a shape. What is always empty is repeated at most once. -/
def times (inner : Shape) (least : Nat) (greatest : Option Nat) : Shape :=
  let (least, greatest) :=
    if inner.isWeightless then (min least 1, some (min (greatest.getD 1) 1)) else (least, greatest)
  match least, greatest with
  | 0, some 0 => empty
  | 1, some 1 => inner
  | least, greatest => repeated inner least greatest

end Shape

/-! ## Patterns -/

namespace Pattern

/-- The shapes of the alternatives of a pattern. -/
def alternatives : Pattern → List Shape
  | empty => [.empty]
  | one anyCase chars => [.ofTable (chars.table anyCase)]
  | anchor condition => [.condition condition]
  | seq first rest => [(Shape.choose first.alternatives).append (.choose rest.alternatives)]
  | alt before last => before.alternatives ++ last.alternatives
  | repeated inner least greatest => [(Shape.choose inner.alternatives).times least greatest]
  | group captured inner =>
    let shape := Shape.choose inner.alternatives
    [if captured then .capture shape else shape]

/-- The shape of a pattern. -/
def shape (pattern : Pattern) : Shape := .choose pattern.alternatives

end Pattern

end XmlInspect
