import XmlInspect.Text.Blank
import XmlInspect.Text.CaseFold
import XmlInspect.Text.WordChar

/-!
# Classes of characters

The sets of characters that a pattern can name. They are built from ranges and three properties of
characters by the operations on sets. Where case does not count, a range holds a character if it
holds one of its variants; the operations on sets come after that. Brackets mean nothing by
themselves, but they are kept, because a pattern must not nest too deeply.
-/

namespace XmlInspect

/-- A set of characters. -/
inductive CharClass where
  | empty
  /-- All characters between the bounds of some ranges, which belong to it. -/
  | ranges (bounds : List (Char × Char))
  /-- Decimal digits of all scripts. -/
  | digit
  | blank
  /-- Characters of words of all scripts. -/
  | word
  /-- What is written in brackets. -/
  | bracket (inner : CharClass)
  | negate (inner : CharClass)
  | union (left right : CharClass)
  | inter (left right : CharClass)
  | difference (left right : CharClass)
  | symmetricDifference (left right : CharClass)
  deriving DecidableEq, Repr

namespace CharClass

/-- The set of one character. -/
def single (c : Char) : CharClass := ranges [(c, c)]

/-- Adds what is written next in a bracket. -/
def add : CharClass → CharClass → CharClass
  | empty, chars => chars
  | left, chars => union left chars

/-- The sets that have a name, all of which hold only ASCII characters. -/
def named : List (String × List (Char × Char)) := [
  ("alnum", [('0', '9'), ('A', 'Z'), ('a', 'z')]),
  ("alpha", [('A', 'Z'), ('a', 'z')]),
  ("ascii", [('\x00', '\x7f')]),
  ("blank", [('\t', '\t'), (' ', ' ')]),
  ("cntrl", [('\x00', '\x1f'), ('\x7f', '\x7f')]),
  ("digit", [('0', '9')]),
  ("graph", [('!', '~')]),
  ("lower", [('a', 'z')]),
  ("print", [(' ', '~')]),
  ("punct", [('!', '/'), (':', '@'), ('[', '\x60'), ('\x7b', '~')]),
  ("space", [('\t', '\r'), (' ', ' ')]),
  ("upper", [('A', 'Z')]),
  ("word", [('0', '9'), ('A', 'Z'), ('_', '_'), ('a', 'z')]),
  ("xdigit", [('0', '9'), ('A', 'F'), ('a', 'f')])]

/-- The set of a name. -/
def ofName? (name : String) : Option CharClass := (named.lookup name).map ranges

/-- Whether a set holds a character, or one of its case variants if `anyCase` is set. -/
def contains (anyCase : Bool) (c : Char) : CharClass → Bool
  | empty => false
  | ranges bounds =>
    let inside (c : Char) : Bool := bounds.any fun (low, high) ↦ low ≤ c && c ≤ high
    if anyCase then (Text.caseVariants c).any inside else inside c
  | digit => Text.isDecimalDigit c
  | blank => Text.isBlank c
  | word => Text.isWordChar c
  | bracket inner => inner.contains anyCase c
  | negate inner => !inner.contains anyCase c
  | union left right => left.contains anyCase c || right.contains anyCase c
  | inter left right => left.contains anyCase c && right.contains anyCase c
  | difference left right => left.contains anyCase c && !right.contains anyCase c
  | symmetricDifference left right => left.contains anyCase c != right.contains anyCase c

end CharClass

end XmlInspect
