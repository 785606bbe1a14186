import XmlInspect.Pattern.CharClass

/-!
# Patterns

A pattern describes texts, and is looked for anywhere in a given one. Only whether it is found
matters, so nothing is said about which of several ways to find it comes first.

All ways are followed at once. A set of places in the text is a row of marks, one for each place
before, between and after the characters. A pattern takes the places at which it may start to the
places at which it may then end: a character moves every mark to the next place if the character
there fits, a condition keeps some marks, and so on. A repetition goes on from every place only
once, so it ends after as many rounds as there are places, and repetitions of repetitions take no
time to speak of.
-/

namespace XmlInspect

/-- A condition on a place in a text. -/
inductive Anchor where
  | textStart
  | textEnd
  | lineStart
  | lineEnd
  /-- A word starts or ends here. -/
  | wordEdge
  | noWordEdge
  | wordStart
  | wordEnd
  /-- No word goes on here, though one may start. -/
  | notAfterWord
  /-- No word goes on here, though one may end. -/
  | notBeforeWord
  deriving DecidableEq, Repr

/-- A description of texts. -/
inductive Pattern where
  | empty
  /-- One character of a set, whose case may be ignored. -/
  | one (anyCase : Bool) (chars : CharClass)
  | anchor (anchor : Anchor)
  | seq (first second : Pattern)
  | alt (left right : Pattern)
  /-- As many times as the bounds say, without upper bound if there is none. -/
  | repeated (inner : Pattern) (least : Nat) (greatest : Option Nat)
  /-- What is written in parentheses, whose place may be asked for. -/
  | group (captured : Bool) (inner : Pattern)
  deriving DecidableEq, Repr

/-! ## Places -/

namespace Anchor

/-- Whether a character belongs to a word. -/
def inWord (c : Option Char) : Bool := c.any Text.isWordChar

/-- Whether a place satisfies the condition, by the characters before and after it. -/
def holds (before after : Option Char) : Anchor → Bool
  | textStart => before.isNone
  | textEnd => after.isNone
  | lineStart => before.all (· == '\n')
  | lineEnd => after.all (· == '\n')
  | wordEdge => inWord before != inWord after
  | noWordEdge => inWord before == inWord after
  | wordStart => !inWord before && inWord after
  | wordEnd => inWord before && !inWord after
  | notAfterWord => !inWord before
  | notBeforeWord => !inWord after

/-- Which places of a text satisfy the condition, given the character before it. -/
def places (anchor : Anchor) (before : Option Char) : List Char → List Bool
  | [] => [anchor.holds before none]
  | c :: rest => anchor.holds before (some c) :: anchor.places (some c) rest

end Anchor

/-! ## Following marks -/

/-- A mark for every place in a text. -/
abbrev Marks := List Bool

namespace Marks

def union (a b : Marks) : Marks := List.zipWith (· || ·) a b

def inter (a b : Marks) : Marks := List.zipWith (· && ·) a b

/-- Moves on all marks before the characters that fit. -/
def advance (fits : Char → Bool) (text : List Char) (marks : Marks) : Marks :=
  false :: List.zipWith (fun mark c ↦ mark && fits c) marks text

/-- The marks that are not among others. -/
def diff (a b : Marks) : Marks := List.zipWith (fun a b ↦ a && !b) a b

/-- No mark at any place. -/
def none (marks : Marks) : Marks := marks.map fun _ ↦ false

/-- Takes a step several times, as long as marks are left and that changes anything. -/
def iterate (step : Marks → Marks) : Nat → Marks → Marks
  | 0, marks => marks
  | n + 1, marks =>
    if marks.any id then
      let next := step marks
      if next = marks then marks else iterate step n next
    else
      marks

/-- Takes a step up to a number of times, and adds all marks on the way to those that were reached.
No step is taken from a place from which one was taken before. -/
def spread (step : Marks → Marks) : Nat → (left current reached : Marks) → Marks
  | 0, _, _, reached => reached
  | n + 1, left, current, reached =>
    if current.any id then
      let left := left.union current
      let next := step current
      spread step n left (next.diff left) (reached.union next)
    else
      reached

end Marks

namespace Pattern

/-- The places at which a pattern may end if it starts at one of the marked places. -/
def ends (text : List Char) : Pattern → Marks → Marks
  | empty, marks => marks
  | one anyCase chars, marks => marks.advance (chars.contains anyCase ·) text
  | anchor condition, marks => marks.inter (condition.places none text)
  | seq first second, marks => second.ends text (first.ends text marks)
  | alt left right, marks => (left.ends text marks).union (right.ends text marks)
  | repeated inner least greatest, marks =>
    let step := fun marks ↦ inner.ends text marks
    match least, greatest with
    | least + 1, none =>
      Marks.spread step (text.length + 1) marks.none (Marks.iterate step least marks) marks.none
    | least, greatest =>
      let start := Marks.iterate step least marks
      let rounds :=
        match greatest with
        | some greatest => greatest - least
        | none => text.length + 1
      Marks.spread step rounds marks.none start start
  | group _ inner, marks => inner.ends text marks

/-- Whether the pattern is found in a text. -/
def isFoundIn (pattern : Pattern) (text : List Char) : Bool :=
  (pattern.ends text (List.replicate (text.length + 1) true)).any id

end Pattern

end XmlInspect
