import XmlInspect.Number.Decimal
import XmlInspect.Query.Fault
import XmlInspect.Text.Blank
import XmlInspect.Text.Find
import XmlInspect.Text.Letter

/-!
# Reading tokens of queries

Blanks divide tokens and mean nothing else. Punctuation is read greedily, so two slashes are one
token and so are two colons; a name takes a single colon with it and leaves two for the axis.
Numbers are taken with all points in them and only then judged.

Each reader returns what is left of the text, which is always shorter.
-/

namespace XmlInspect.Query

/-! ## Names -/

def startsName (c : Char) : Bool := Text.isLetter c || c == '_'

def continuesName (c : Char) : Bool :=
  Text.isLetterOrNumber c || c == '_' || c == '-' || c == '.'

/-- The part of a text that makes up the rest of a name with a qualifier, given what follows the
colon. -/
def lexLocalName? : List Char → Option (List Char × List Char)
  | '*' :: rest => some (['*'], rest)
  | c :: rest =>
    if startsName c then
      some (c :: rest.takeWhile continuesName, rest.dropWhile continuesName)
    else
      none
  | [] => none

/-- Reads a name that starts with `first` at `offset`. -/
def lexName (offset : Nat) (first : Char) (text : List Char) :
    Except Fault (List Char × List Char) :=
  let name := first :: text.takeWhile continuesName
  match text.dropWhile continuesName with
  | ':' :: rest =>
    match rest with
    | ':' :: _ => .ok (name, ':' :: rest)
    | _ =>
      match lexLocalName? rest with
      | some (localName, after) => .ok (name ++ ':' :: localName, after)
      | none => .error (.invalidName offset)
  | rest => .ok (name, rest)

/-- The token of a name, which is an operator if it is one of four words after an operand. -/
def nameToken (afterOperand : Bool) (name : List Char) : Token :=
  let text := String.ofList name
  if afterOperand then
    if text = "and" then .operator .and
    else if text = "or" then .operator .or
    else if text = "div" then .operator .div
    else if text = "mod" then .operator .mod
    else .name text
  else
    .name text

/-! ## Other tokens -/

/-- Reads a literal up to its closing quote. -/
def lexLiteral (quote : Char) (text : List Char) : Except Fault (Token × List Char) :=
  match Text.cutAt [quote] text with
  | some (literal, rest) => .ok (.literal (String.ofList literal), rest)
  | none => .error .unterminatedLiteral

/-- Whether a character may stand in a number. -/
def continuesNumber (c : Char) : Bool := c.isDigit || c == '.'

/-- Reads a number that starts with `first`. -/
def lexNumber (first : Char) (text : List Char) : Except Fault (Token × List Char) :=
  let digits := first :: text.takeWhile continuesNumber
  match Number.readDecimal? digits with
  | some value => .ok (.number value, text.dropWhile continuesNumber)
  | none => .error (.invalidNumber digits)

/-- Whether a text starts with a digit. -/
def startsWithDigit : List Char → Bool
  | c :: _ => c.isDigit
  | [] => false

/-- The token of fixed spelling that `c` starts, and how many further characters belong to it. -/
def fixedToken? (afterOperand : Bool) (c : Char) (text : List Char) : Option (Token × Nat) :=
  match c, text with
  | '/', '/' :: _ => some (.doubleSlash, 1)
  | '/', _ => some (.slash, 0)
  | '[', _ => some (.leftBracket, 0)
  | ']', _ => some (.rightBracket, 0)
  | '(', _ => some (.leftParen, 0)
  | ')', _ => some (.rightParen, 0)
  | '@', _ => some (.atSign, 0)
  | ',', _ => some (.comma, 0)
  | '|', _ => some (.operator .union, 0)
  | '+', _ => some (.operator .plus, 0)
  | '-', _ => some (.operator .minus, 0)
  | '=', _ => some (.operator .eq, 0)
  | '!', '=' :: _ => some (.operator .notEq, 1)
  | '<', '=' :: _ => some (.operator .ltEq, 1)
  | '<', _ => some (.operator .lt, 0)
  | '>', '=' :: _ => some (.operator .gtEq, 1)
  | '>', _ => some (.operator .gt, 0)
  | ':', ':' :: _ => some (.doubleColon, 1)
  | '*', _ => some (if afterOperand then .operator .multiply else .star, 0)
  | '.', '.' :: _ => some (.doubleDot, 1)
  | '.', _ => if startsWithDigit text then none else some (.dot, 0)
  | _, _ => none

/-- Reads the token that starts with the character `c` at `offset`. -/
def lexToken (afterOperand : Bool) (offset : Nat) (c : Char) (text : List Char) :
    Except Fault (Token × List Char) :=
  match fixedToken? afterOperand c text with
  | some (token, further) => .ok (token, text.drop further)
  | none =>
    if c == '"' || c == '\'' then
      lexLiteral c text
    else if continuesNumber c then
      lexNumber c text
    else if startsName c then
      match lexName offset c text with
      | .ok (name, rest) => .ok (nameToken afterOperand name, rest)
      | .error fault => .error fault
    else
      .error (.unexpectedChar c)

/-! ## Progress -/

theorem suffix_of_lexName {offset : Nat} {first : Char} {text name rest : List Char}
    (h : lexName offset first text = .ok (name, rest)) : rest <:+ text := by
  have hdrop := List.dropWhile_suffix (l := text) continuesName
  unfold lexName at h
  dsimp only at h
  split at h
  · rename_i after hafter
    rw [hafter] at hdrop
    split at h
    · cases h
      exact hdrop
    · split at h
      · rename_i localName after' hlocal
        cases h
        refine List.IsSuffix.trans ?_ ((List.suffix_cons _ _).trans hdrop)
        unfold lexLocalName? at hlocal
        split at hlocal
        · cases hlocal
          exact List.suffix_cons _ _
        · split at hlocal
          · cases hlocal
            exact (List.dropWhile_suffix _).trans (List.suffix_cons _ _)
          · cases hlocal
        · cases hlocal
      · cases h
  · cases h
    exact hdrop

theorem suffix_of_lexNumber {first : Char} {text rest : List Char} {token : Token}
    (h : lexNumber first text = .ok (token, rest)) : rest <:+ text := by
  unfold lexNumber at h
  dsimp only at h
  split at h
  · cases h
    exact List.dropWhile_suffix _
  · cases h

theorem suffix_of_lexLiteral {quote : Char} {text rest : List Char} {token : Token}
    (h : lexLiteral quote text = .ok (token, rest)) : rest <:+ text := by
  unfold lexLiteral at h
  split at h
  · rename_i hc
    cases h
    exact Text.suffix_of_cutAt hc
  · cases h

/-- A token takes at least its first character. -/
theorem suffix_of_lexToken {afterOperand : Bool} {offset : Nat} {c : Char} {text rest : List Char}
    {token : Token} (h : lexToken afterOperand offset c text = .ok (token, rest)) :
    rest <:+ text := by
  unfold lexToken at h
  split at h
  · cases h
    exact List.drop_suffix _ _
  split at h
  · exact suffix_of_lexLiteral h
  split at h
  · exact suffix_of_lexNumber h
  split at h
  · split at h
    · rename_i hn
      cases h
      exact suffix_of_lexName hn
    · cases h
  · cases h

/-! ## All tokens -/

/-- Reads the tokens of a text that starts at `offset`, in characters, after a token. -/
def lexFrom (afterOperand : Bool) (offset : Nat) (text : List Char) :
    Except Fault (List Token) :=
  match text with
  | [] => .ok []
  | c :: tail =>
    if Text.isBlank c then
      lexFrom afterOperand (offset + 1) tail
    else
      match h : lexToken afterOperand offset c tail with
      | .error fault => .error fault
      | .ok (token, rest) =>
        have : rest.length < tail.length + 1 :=
          Nat.lt_succ_of_le (suffix_of_lexToken h).length_le
        match lexFrom token.endsOperand (offset + (tail.length + 1 - rest.length)) rest with
        | .error fault => .error fault
        | .ok tokens => .ok (token :: tokens)
termination_by text.length

/-- Reads the tokens of a query. -/
def lex (text : List Char) : Except Fault (List Token) := lexFrom false 0 text

end XmlInspect.Query
