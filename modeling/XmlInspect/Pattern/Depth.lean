import XmlInspect.Pattern.Basic

/-!
# How deeply patterns nest

Groups, repetitions, brackets, rows of patterns and alternatives are one level deeper than what they
are made of. A row is one level however long it is, and so are alternatives, and what is joined in a
bracket. A pattern that nests too deeply is refused, so whoever walks through one needs only so much
room.
-/

namespace XmlInspect

namespace CharClass

/-- Whether several sets are joined. -/
def isUnion : CharClass → Bool
  | union _ _ => true
  | _ => false

/-- How deeply a set of characters nests. -/
def depth : CharClass → Nat
  | empty | ranges _ | digit | blank | word => 0
  | bracket inner => inner.depth + 1
  | negate inner => inner.depth
  | union left right => max (if left.isUnion then left.depth else left.depth + 1) (right.depth + 1)
  | inter left right | difference left right | symmetricDifference left right =>
    max left.depth right.depth + 1

end CharClass

namespace Pattern

/-- Whether the pattern is a row of patterns. -/
def isRow : Pattern → Bool
  | seq _ _ => true
  | _ => false

/-- Whether the pattern leaves a choice between patterns. -/
def isChoice : Pattern → Bool
  | alt _ _ => true
  | _ => false

/-- How deeply a pattern nests. -/
def depth : Pattern → Nat
  | empty | anchor _ => 0
  | one _ chars => chars.depth
  | seq first rest => max (first.depth + 1) (if rest.isRow then rest.depth else rest.depth + 1)
  | alt before last =>
    max (if before.isChoice then before.depth else before.depth + 1) (last.depth + 1)
  | repeated inner _ _ | group _ inner => inner.depth + 1

/-- How deeply a pattern may nest. -/
def greatestDepth : Nat := 250

end Pattern

end XmlInspect
