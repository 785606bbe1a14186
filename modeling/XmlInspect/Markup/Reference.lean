import XmlInspect.Text.Find

/-!
# References

In text and attribute values `&name;` stands for the text of an entity, and `&#n;` or `&#xn;` for
the character with that number. The replacement is not looked at again. A semicolon without an
ampersand before it is text.
-/

namespace XmlInspect.Markup

/-! ## Faults -/

/-- What is wrong with the number of a character reference. -/
inductive NumberFault where
  | sign
  | empty
  | digit
  | tooLarge
  /-- Zero stands for no character. -/
  | zero
  /-- The number is no character. -/
  | noCharacter (n : Nat)
  deriving DecidableEq, Repr

/-- What is wrong with a reference. Offsets are those of the text that holds it. -/
inductive ReferenceFault where
  /-- No semicolon closes the reference before the next one or the end. -/
  | unterminated (start size : Nat)
  /-- No entity goes by this name. -/
  | unknownEntity (start stop : Nat) (name : List Char)
  | number (fault : NumberFault)
  deriving DecidableEq, Repr

namespace NumberFault

def message : NumberFault → String
  | sign => "unexpected number sign"
  | empty => "cannot parse integer from empty string"
  | digit => "invalid digit found in string"
  | tooLarge => "number too large to fit in target type"
  | zero => "0x0 character is not permitted in XML"
  | noCharacter n => s!"`{n}` is not a valid codepoint"

end NumberFault

namespace ReferenceFault

def message : ReferenceFault → String
  | unterminated start size =>
    s!"Error while escaping character at range {start}..{size}: Cannot find ';' after '&'"
  | unknownEntity start stop name =>
    s!"at {start}..{stop}: unrecognized entity `{String.ofList name}`"
  | number fault => s!"invalid character reference: {fault.message}"

end ReferenceFault

/-! ## Numbers -/

/-- The value of a digit in a base up to sixteen. -/
def digitValue? (base : Nat) (c : Char) : Option Nat :=
  let value :=
    if c.isDigit then c.toNat - '0'.toNat
    else if 'a' ≤ c ∧ c ≤ 'f' then c.toNat - 'a'.toNat + 10
    else if 'A' ≤ c ∧ c ≤ 'F' then c.toNat - 'A'.toNat + 10
    else base
  if value < base then some value else none

/-- The bound on numbers of character references. -/
def numberLimit : Nat := UInt32.size

/-- Reads on after the digits that made up `n`. The first wrong digit or the first overflow
decides, and at one digit the wrong digit does. -/
def readDigits (base n : Nat) : List Char → Except NumberFault Nat
  | [] => .ok n
  | c :: rest =>
    match digitValue? base c with
    | none => .error .digit
    | some value =>
      let next := n * base + value
      if next < numberLimit then readDigits base next rest else .error .tooLarge

/-- Reads an unsigned number. -/
def readNumber (base : Nat) : List Char → Except NumberFault Nat
  | [] => .error .empty
  | c :: rest => if c == '+' || c == '-' then .error .sign else readDigits base 0 (c :: rest)

/-- The character with a number. -/
def charOfNumber (n : Nat) : Except NumberFault Char :=
  if n = 0 then .error .zero
  else if n.isValidChar then .ok (Char.ofNat n)
  else .error (.noCharacter n)

/-- The character that a reference `&#digits;` stands for. -/
def charOfReference (digits : List Char) : Except NumberFault Char := do
  let n ← match digits with
    | 'x' :: hex => readNumber 16 hex
    | decimal => readNumber 10 decimal
  charOfNumber n

/-! ## Texts -/

/-- The text that a reference to `name` stands for. -/
def expand (entity? : List Char → Option (List Char)) (start : Nat) (name : List Char) :
    Except ReferenceFault (List Char) :=
  match name with
  | '#' :: digits =>
    match charOfReference digits with
    | .ok c => .ok [c]
    | .error fault => .error (.number fault)
  | _ =>
    match entity? name with
    | some text => .ok text
    | none => .error (.unknownEntity start (start + Text.byteSize name) name)

/-- Replaces the references in what is left of a text of `size` bytes from `offset` on. -/
def unescapeFrom (entity? : List Char → Option (List Char)) (size offset : Nat)
    (text : List Char) : Except ReferenceFault (List Char) :=
  match text with
  | [] => .ok []
  | c :: rest =>
    if c = '&' then
      let name := rest.takeWhile fun c ↦ c != '&' && c != ';'
      match h : rest.drop name.length with
      | ';' :: after => do
        have : after.length < rest.length + 1 := by
          have := congrArg List.length h
          simp only [List.length_drop, List.length_cons] at this
          omega
        let expansion ← expand entity? (offset + 1) name
        let tail ← unescapeFrom entity? size (offset + 1 + Text.byteSize name + 1) after
        return expansion ++ tail
      | _ => .error (.unterminated offset size)
    else do
      return c :: (← unescapeFrom entity? size (offset + c.utf8Size) rest)
termination_by text.length

/-- Replaces the references in a text. -/
def unescape (entity? : List Char → Option (List Char)) (text : List Char) :
    Except ReferenceFault (List Char) :=
  unescapeFrom entity? (Text.byteSize text) 0 text

end XmlInspect.Markup
