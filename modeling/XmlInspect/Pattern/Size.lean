import XmlInspect.Pattern.Shape
import XmlInspect.Text.ByteRow

/-!
# How large patterns are

A pattern is looked for by an automaton that reads bytes: one that finds the end of what fits, and
another that finds its start from there, reading backward. Both have states of a fixed size, with
transitions for ranges of bytes and links for choices that read nothing. A pattern for which one of
them would take too much space is refused.

No automaton is built here; only its size is counted. Repetitions with bounds are unfolded, so a
short pattern may need a very large one.

## Sets of characters

A set beyond ASCII takes several bytes a character. Forward, its rows of byte ranges share what they
start with, and where the same is left to be read there is one state. Backward, rows share the
states for what they start with in the order of the text, which is read last, and there is a link to
every row.
-/

namespace XmlInspect

open Text (RangeTable ByteRange)

/-- In which direction an automaton reads. -/
inductive Direction where
  | forward
  | backward
  deriving DecidableEq, Repr

/-- The bytes that a state takes. -/
def stateSize : Nat := 32

/-- The bytes that a transition takes in a state that may have several. -/
def transitionSize : Nat := 8

/-- The bytes that a link takes. -/
def linkSize : Nat := 4

/-! ## Sets of characters -/

/-- Parts rows by what they start with, neighbours only, and gives what is left of them. -/
def forks : List (List ByteRange) → List (ByteRange × List (List ByteRange))
  | [] => []
  | [] :: rows => forks rows
  | (head :: tail) :: rows =>
    match forks rows with
    | (next, tails) :: others =>
      if next = head then (head, tail :: tails) :: others
      else (head, [tail]) :: (next, tails) :: others
    | [] => [(head, [tail])]

/-- What is left to be read at all places inside rows of at most so many bytes. -/
def restsWithin : Nat → List (List ByteRange) → List (List (List ByteRange))
  | 0, _ => []
  | length + 1, rows =>
    if rows.all List.isEmpty then []
    else rows :: (forks rows).flatMap fun (_, tails) ↦ restsWithin length tails

/-- The size of what reads one character of a set. -/
def tableSize (direction : Direction) (table : RangeTable) : Nat :=
  if table.all (·.2 ≤ 0x7F) then
    2 * stateSize + table.length * transitionSize
  else
    let rows := table.byteRows
    let rests := restsWithin 4 rows
    match direction with
    | .forward =>
      rests.eraseDups.foldl (fun size rest ↦
        size + stateSize + (forks rest).length * transitionSize) stateSize
    | .backward =>
      rests.foldl (fun size rest ↦ size + (forks rest).length * stateSize)
        (2 * stateSize + rows.length * linkSize)

/-! ## Plain texts -/

/-- Cuts a list of words at those that are empty. -/
def cutAtEmpty : List (List Nat) → List (List (List Nat))
  | [] => [[]]
  | [] :: words => [] :: cutAtEmpty words
  | word :: words =>
    match cutAtEmpty words with
    | first :: others => (word :: first) :: others
    | [] => [[word]]

/-- The size of what reads one of some words, of at most so many bytes, up to the common end.
Words share what they start with, but not with words on the other side of one that ends there: that
one comes between them in the order of preference. -/
def wordsSizeWithin : Nat → List (List Nat) → Nat
  | 0, _ => 0
  | length + 1, words =>
    let words := if words.head? = some [] then [] :: words.dropWhile List.isEmpty else words
    let cuts := cutAtEmpty words
    let links := (cuts.filter (!·.isEmpty)).length + (cuts.length - 1)
    let forkSize := if links = 1 then 0 else stateSize + links * linkSize
    cuts.foldl (fun size cut ↦
      let heads := (cut.filterMap List.head?).eraseDups
      let own := if heads.length = 0 then 0
        else if heads.length = 1 then stateSize
        else stateSize + heads.length * transitionSize
      heads.foldl (fun size head ↦
        let tails := (cut.filter (·.head? == some head)).map (·.drop 1)
        if tails.all List.isEmpty then size else size + wordsSizeWithin length tails)
        (size + own)) forkSize

/-- The size of what reads one of some texts. -/
def wordsSize (direction : Direction) (texts : List (List Char)) : Nat :=
  let words := texts.map fun text ↦
    let bytes := text.flatMap Text.utf8Bytes
    match direction with
    | .forward => bytes
    | .backward => bytes.reverse
  let longest := words.foldl (fun length word ↦ max length word.length) 0
  stateSize + wordsSizeWithin longest words

/-! ## Shapes -/

namespace Shape

/-- A number of bytes that every text of a shape has at least, or nothing if a text may be wanted
that there cannot be. -/
def leastLength : Shape → Option Nat
  | empty | condition _ => some 0
  | literal text => some text.length
  | words texts => some (if texts.all (!·.isEmpty) then 1 else 0)
  | chars table => if table.isEmpty then none else some 1
  | capture inner => inner.leastLength
  | seq first rest => do return (← first.leastLength) + (← rest.leastLength)
  | alt first rest => do return min (← first.leastLength) (← rest.leastLength)
  | repeated inner least _ => do return (← inner.leastLength) * least

/-- Whether a shape leaves a choice. -/
def isChoice : Shape → Bool
  | alt _ _ => true
  | _ => false

/-- The size of what repeats something of a given size without end. -/
def endlessSize (least size : Nat) (mayBeEmpty : Bool) : Nat :=
  match least with
  | 0 => if mayBeEmpty then size + 3 * stateSize + 4 * linkSize else size + stateSize + 2 * linkSize
  | least => least * size + stateSize + 2 * linkSize

/-- The size of what repeats something of a given size up to a number of times. -/
def boundedSize (least greatest size : Nat) : Nat :=
  let optional := (greatest - least) * (size + stateSize + 2 * linkSize)
  if least = greatest then least * size
  else if least = 0 ∧ greatest = 1 then stateSize + optional
  else if least = 0 then 2 * stateSize + optional
  else least * size + stateSize + optional

/-- The size of what reads a shape. Places are kept only forward. -/
def size (direction : Direction) : Shape → Nat
  | empty | condition _ => stateSize
  | literal text => (text.foldl (fun length c ↦ length + c.utf8Size) 0) * stateSize
  | words texts => wordsSize direction texts
  | chars table => tableSize direction table
  | capture inner =>
    match direction with
    | .forward => inner.size direction + 2 * stateSize
    | .backward => inner.size direction
  | seq first rest => first.size direction + rest.size direction
  | alt first rest =>
    let restSize := rest.size direction
    first.size direction + linkSize +
      if rest.isChoice then restSize else restSize + linkSize + 2 * stateSize
  | repeated inner least none =>
    endlessSize least (inner.size direction) (inner.leastLength.all (· == 0))
  | repeated inner least (some greatest) => boundedSize least greatest (inner.size direction)

/-- Whether what a shape reads can only start where an automaton starts: at the start of the text,
or at its end if it is read backward. -/
def isAnchored (direction : Direction) : Shape → Bool
  | empty | literal _ | words _ | chars _ => false
  | condition anchor =>
    match direction with
    | .forward => anchor == .textStart
    | .backward => anchor == .textEnd
  | capture inner => inner.isAnchored direction
  | seq first rest =>
    match direction with
    | .forward => first.isAnchored direction || first.isWeightless && rest.isAnchored direction
    | .backward => rest.isAnchored direction || rest.isWeightless && first.isAnchored direction
  | alt first rest => first.isAnchored direction && rest.isAnchored direction
  | repeated inner least _ => 0 < least && inner.isAnchored direction

/-- The size of the automaton of a shape: what passes over the text before it, the shape as a whole
as something whose place is kept, and the final state. -/
def automatonSize (direction : Direction) (shape : Shape) : Nat :=
  let skipSize :=
    if shape.isAnchored direction then stateSize
    else endlessSize 0 (2 * stateSize + transitionSize) false
  skipSize + (capture shape).size direction + stateSize

end Shape

namespace Pattern

/-- The bytes that an automaton may take. -/
def greatestSize : Nat := 10 * 1024 * 1024

/-- Whether a pattern is too large to be looked for. -/
def isTooLarge (pattern : Pattern) : Bool :=
  let shape := pattern.shape
  greatestSize < shape.automatonSize .forward || greatestSize < shape.automatonSize .backward

end Pattern

end XmlInspect
