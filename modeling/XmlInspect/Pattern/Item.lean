import XmlInspect.Pattern.Basic
import XmlInspect.Text.Letter

/-!
# Items of written patterns

A written pattern is a row of items: characters, sets, conditions, brackets of groups, bars and
repetitions. What an item means may depend on the switches in force, so an item only says what is
written. What reads an item gives the item and the rest of the text.

Not all that is well-formed elsewhere is supported: properties of characters by their names, and
the switches that ignore blanks, give up on Unicode or change what ends a line, are refused.
-/

namespace XmlInspect.Pattern

/-- What can be switched on and off inside a pattern. The last two do not change whether a pattern
is found. -/
inductive Switch where
  /-- Case does not count. -/
  | anyCase
  /-- A line starts and ends at its terminator, and not only at the ends of the text. -/
  | multiLine
  /-- The wildcard stands for line terminators too. -/
  | dotAll
  | swapGreed
  | unicode
  deriving DecidableEq, Repr

/-- What is written in a pattern. -/
inductive Item where
  | char (c : Char)
  | wildcard
  | chars (chars : CharClass)
  | lineStart
  | lineEnd
  | anchor (anchor : Anchor)
  /-- Turns switches up to the end of the group around. -/
  | switches (changes : List (Switch × Bool))
  /-- Opens a group whose place may be asked for, perhaps by a name. -/
  | captureOpen (name : Option (List Char))
  /-- Opens a group and turns switches inside it. -/
  | groupOpen (changes : List (Switch × Bool))
  | groupClose
  | bar
  | repeated (least : Nat) (greatest : Option Nat)
  deriving DecidableEq, Repr

/-! ## Numbers -/

/-- The value of a digit. -/
def digitValue? (c : Char) : Option Nat :=
  if '0' ≤ c ∧ c ≤ '9' then some (c.toNat - '0'.toNat)
  else if 'a' ≤ c ∧ c ≤ 'f' then some (c.toNat - 'a'.toNat + 10)
  else if 'A' ≤ c ∧ c ≤ 'F' then some (c.toNat - 'A'.toNat + 10)
  else none

/-- The character whose code hexadecimal digits spell. -/
def hexChar? (digits : List Char) : Option Char := do
  let values ← digits.mapM digitValue?
  let code := values.foldl (fun n digit ↦ 16 * n + digit) 0
  if code.isValidChar ∧ !digits.isEmpty then some (Char.ofNat code) else none

/-- Reads so many hexadecimal digits, or any number of them in braces. -/
def hexEscape? (count : Nat) (text : List Char) : Option (Char × List Char) :=
  if text.head? = some '\x7b' then
    let inside := text.drop 1
    match inside.dropWhile (· != '\x7d') with
    | _ :: after => (hexChar? (inside.takeWhile (· != '\x7d'))).map fun c ↦ (c, after)
    | [] => none
  else if count ≤ text.length then
    (hexChar? (text.take count)).map fun c ↦ (c, text.drop count)
  else
    none

/-- Reads a decimal number of 32 bits with blanks around it. -/
def decimal? (text : List Char) : Option (Nat × List Char) :=
  let start := text.dropWhile Text.isBlank
  let digits := start.takeWhile Char.isDigit
  let value := digits.foldl (fun n c ↦ 10 * n + (c.toNat - '0'.toNat)) 0
  if digits.isEmpty ∨ UInt32.size ≤ value then none
  else some (value, (start.dropWhile Char.isDigit).dropWhile Text.isBlank)

/-! ## Repetitions -/

/-- Passes over the question mark that makes a repetition reluctant. -/
def skipReluctant : List Char → List Char
  | '?' :: rest => rest
  | text => text

/-- Reads the bounds of a repetition after the opening brace. -/
def bounds? (text : List Char) : Option (Item × List Char) :=
  match decimal? text with
  | some (least, '\x7d' :: rest) => some (.repeated least (some least), skipReluctant rest)
  | some (least, ',' :: '\x7d' :: rest) => some (.repeated least none, skipReluctant rest)
  | some (least, ',' :: rest) =>
    match decimal? rest with
    | some (greatest, '\x7d' :: rest) =>
      if least ≤ greatest then some (.repeated least (some greatest), skipReluctant rest) else none
    | _ => none
  | _ => none

/-! ## Escapes -/

/-- What a backslash and one character stand for. -/
def letterEscape? : Char → Option Item
  | 'd' => some (.chars .digit)
  | 'D' => some (.chars (.negate .digit))
  | 's' => some (.chars .blank)
  | 'S' => some (.chars (.negate .blank))
  | 'w' => some (.chars .word)
  | 'W' => some (.chars (.negate .word))
  | 'a' => some (.char '\x07')
  | 'f' => some (.char '\x0c')
  | 't' => some (.char '\t')
  | 'n' => some (.char '\n')
  | 'r' => some (.char '\r')
  | 'v' => some (.char '\x0b')
  | 'A' => some (.anchor .textStart)
  | 'z' => some (.anchor .textEnd)
  | 'b' => some (.anchor .wordEdge)
  | 'B' => some (.anchor .noWordEdge)
  | '<' => some (.anchor .wordStart)
  | '>' => some (.anchor .wordEnd)
  | c => if c.toNat < 128 ∧ !c.isAlphanum then some (.char c) else none

/-- The number of hexadecimal digits that a letter announces. -/
def hexDigits? : Char → Option Nat
  | 'x' => some 2
  | 'u' => some 4
  | 'U' => some 8
  | _ => none

/-- The conditions on words that have a name. -/
def namedEdges : List (String × Anchor) := [
  ("start", .wordStart), ("end", .wordEnd), ("start-half", .notAfterWord),
  ("end-half", .notBeforeWord)]

/-- Whether a character may stand in the name of a condition. -/
def inEdgeName (c : Char) : Bool := c.isAlpha || c == '-'

/-- Reads the name of a condition on words after an opening brace, if there is a name at all. -/
def edgeName? (text : List Char) : Option (Item × List Char) :=
  match text.dropWhile inEdgeName with
  | '\x7d' :: rest =>
    (namedEdges.lookup (String.ofList (text.takeWhile inEdgeName))).map fun edge ↦
      (.anchor edge, rest)
  | _ => none

/-- Whether a name of a condition is announced. -/
def startsEdgeName : List Char → Bool
  | '\x7b' :: c :: _ => inEdgeName c
  | _ => false

/-- Reads what stands after a backslash. -/
def escape? : List Char → Option (Item × List Char)
  | [] => none
  | c :: rest =>
    if c = 'b' ∧ startsEdgeName rest then edgeName? (rest.drop 1)
    else
      match hexDigits? c with
      | some count => (hexEscape? count rest).map fun (c, rest) ↦ (.char c, rest)
      | none => (letterEscape? c).map fun item ↦ (item, rest)

/-! ## Sets in brackets -/

/-- How two sets are combined. -/
inductive SetOperator where
  | inter
  | difference
  | symmetricDifference
  deriving DecidableEq, Repr

/-- The result of an operator on sets. -/
def SetOperator.apply : SetOperator → CharClass → CharClass → CharClass
  | inter => CharClass.inter
  | difference => CharClass.difference
  | symmetricDifference => CharClass.symmetricDifference

/-- A bracket that is still open. -/
structure Bracket where
  negated : Bool
  /-- What stands before the last operator, and the operator. -/
  left : Option (CharClass × SetOperator)
  /-- What was collected since. -/
  chars : CharClass
  deriving DecidableEq, Repr

namespace Bracket

variable (bracket : Bracket)

/-- Adds a set. -/
def add (chars : CharClass) : Bracket := { bracket with chars := bracket.chars.add chars }

/-- The set up to here, not yet negated. Operators apply from left to right. -/
def value : CharClass :=
  match bracket.left with
  | some (left, op) => op.apply left bracket.chars
  | none => bracket.chars

/-- Goes on after an operator. -/
def combine (op : SetOperator) : Bracket :=
  { bracket with left := some (bracket.value, op), chars := .empty }

/-- The set of the closed bracket. -/
def close : CharClass :=
  .bracket (if bracket.negated then .negate bracket.value else bracket.value)

/-- Reads what may stand only at the head of a bracket: the sign of negation, then a closing
bracket or hyphens that stand for themselves. -/
def openAt (text : List Char) : Bracket × List Char :=
  let negated := text.head? == some '^'
  let text := if negated then text.drop 1 else text
  match text with
  | ']' :: rest => (⟨negated, none, .single ']'⟩, rest)
  | text =>
    let hyphens := text.takeWhile (· == '-')
    (⟨negated, none, (hyphens.map CharClass.single).foldl .add .empty⟩, text.dropWhile (· == '-'))

/-- Reads the name of a set after an opening bracket. -/
def name? (text : List Char) : Option (CharClass × List Char) :=
  if text.head? = some ':' then
    let negated := text[1]? == some '^'
    let name := text.drop (if negated then 2 else 1)
    match name.dropWhile (· != ':') with
    | ':' :: ']' :: after =>
      (CharClass.ofName? (String.ofList (name.takeWhile (· != ':')))).map fun chars ↦
        (if negated then chars.negate else chars, after)
    | _ => none
  else
    none

/-- Reads a character or a set that is escaped, which is all that can stand in a bracket. -/
def member? : List Char → Option ((Char ⊕ CharClass) × List Char)
  | [] => none
  | '\\' :: rest =>
    match escape? rest with
    | some (.char c, rest) => some (.inl c, rest)
    | some (.chars chars, rest) => some (.inr chars, rest)
    | _ => none
  | c :: rest => some (.inl c, rest)

/-- The set that a member stands for. -/
def memberClass : Char ⊕ CharClass → CharClass
  | .inl c => .single c
  | .inr chars => chars

/-- Reads a member, or a range between two characters. A hyphen makes no range before a closing
bracket or another hyphen. -/
def members? (text : List Char) : Option (CharClass × List Char) :=
  match member? text with
  | none => none
  | some (first, '-' :: next :: after) =>
    if next = ']' ∨ next = '-' then
      some (memberClass first, '-' :: next :: after)
    else
      match first, member? (next :: after) with
      | .inl low, some (.inl high, rest) =>
        if low ≤ high then some (.ranges [(low, high)], rest) else none
      | _, _ => none
  | some (first, rest) => some (memberClass first, rest)

end Bracket

/-! ## Groups -/

namespace Switch

/-- The switch of a letter. -/
def ofChar? : Char → Option Switch
  | 'i' => some anyCase
  | 'm' => some multiLine
  | 's' => some dotAll
  | 'U' => some swapGreed
  | 'u' => some unicode
  | _ => none

/-- Reads switches, those after a hyphen as turned off. -/
def readAll? (on : Bool) : List Char → Option (List (Switch × Bool))
  | [] => some []
  | '-' :: rest => if on ∧ !rest.isEmpty then readAll? false rest else none
  | c :: rest => do
    let switch ← ofChar? c
    if switch = unicode ∧ on = false then none
    return (switch, on) :: (← readAll? on rest)

end Switch

/-- Whether a character may stand in the name of a group. -/
def inGroupName (c : Char) : Bool :=
  c == '_' || c == '.' || c == '[' || c == ']' || Text.isLetterOrNumber c

/-- Whether characters are the name of a group. -/
def isGroupName : List Char → Bool
  | [] => false
  | c :: rest => (c == '_' || Text.isLetter c) && rest.all inGroupName

/-- Reads the name of a group up to the closing angle. -/
def groupName? (text : List Char) : Option (Item × List Char) :=
  let name := text.takeWhile (· != '>')
  match text.dropWhile (· != '>') with
  | _ :: rest => if isGroupName name then some (.captureOpen (some name), rest) else none
  | [] => none

/-- Switches in a row, none of which may be given twice. -/
def switchRow? (text : List Char) : Option (List (Switch × Bool)) :=
  (Switch.readAll? true text).filter fun changes ↦
    (changes.map Prod.fst).eraseDups.length == changes.length

/-- Reads switches, which stand for themselves or open a group. -/
def switches? (text : List Char) : Option (Item × List Char) :=
  let inside (c : Char) : Bool := c != ':' && c != ')'
  match switchRow? (text.takeWhile inside), text.dropWhile inside with
  | some changes, ':' :: rest => some (.groupOpen changes, rest)
  | some changes, _ :: rest => if changes.isEmpty then none else some (.switches changes, rest)
  | _, _ => none

/-- Reads what stands after an opening parenthesis. -/
def group? (text : List Char) : Option (Item × List Char) :=
  match text with
  | '?' :: 'P' :: '<' :: rest => groupName? rest
  | '?' :: '<' :: rest => groupName? rest
  | '?' :: rest => switches? rest
  | rest => some (.captureOpen none, rest)

end XmlInspect.Pattern
