import XmlInspect.Text.Blank
import XmlInspect.Text.Find

/-!
# Attributes of a tag

The content of a tag after its name is a row of `key = "value"` pairs. Hardly anything is asked
of a key: its first character belongs to it whatever it is, and it runs up to an equals sign or a
blank. Values stand in quotes of either kind and may be followed directly by the next key.

Reading stops at the first fault. The attributes before it count all the same, so the result is a
list together with the fault that ended it, if one did.
-/

namespace XmlInspect.Markup

/-- An attribute as written. -/
structure RawAttribute where
  /-- The offset of the key in the tag. -/
  position : Nat
  key : List Char
  /-- The text between the quotes. -/
  value : List Char
  deriving DecidableEq, Repr

/-- What is wrong with an attribute. Positions are counted from the tag's name on. -/
inductive AttributeFault where
  | expectedEquals (position : Nat)
  | expectedValue (position : Nat)
  | unquotedValue (position : Nat)
  | unclosedValue (position : Nat) (quote : Char)
  | duplicate (position earlier : Nat)
  deriving DecidableEq, Repr

namespace AttributeFault

def message : AttributeFault → String
  | expectedEquals position =>
    s!"position {position}: attribute key must be directly followed by `=` or space"
  | expectedValue position => s!"position {position}: `=` must be followed by an attribute value"
  | unquotedValue position =>
    s!"position {position}: attribute value must be enclosed in `\"` or `'`"
  | unclosedValue position quote =>
    s!"position {position}: missing closing quote `{quote}` in attribute value"
  | duplicate position earlier =>
    s!"position {position}: duplicated attribute, previous declaration at position {earlier}"

end AttributeFault

namespace RawAttribute

/-- Skips blanks from an offset on. -/
def skipBlanks (offset : Nat) (text : List Char) : Nat × List Char :=
  (offset + (text.takeWhile Text.isXmlBlank).length, text.dropWhile Text.isXmlBlank)

theorem length_skipBlanks_le (offset : Nat) (text : List Char) :
    (skipBlanks offset text).2.length ≤ text.length :=
  (List.dropWhile_suffix _).length_le

/-- Where an attribute read before has the same key, if keys have to be `unique`. -/
def earlier? (unique : Bool) (seen : List RawAttribute) (key : List Char) : Option Nat :=
  if unique then (seen.find? (·.key == key)).map (·.position) else none

/-- Whether a key ends at this character. -/
def endsKey (c : Char) : Bool := c == '=' || Text.isXmlBlank c

/-- Reads the value after an equals sign: its text, and what follows its closing quote. -/
def readValue (offset : Nat) (text : List Char) :
    Except AttributeFault (List Char × Nat × List Char) :=
  match skipBlanks offset text with
  | (offset, []) => .error (.expectedValue offset)
  | (offset, quote :: rest) =>
    if quote == '"' || quote == '\'' then
      match Text.cutAt [quote] rest with
      | some (value, after) => .ok (value, offset + 1 + Text.byteSize value + 1, after)
      | none => .error (.unclosedValue (offset + 1 + Text.byteSize rest) quote)
    else
      .error (.unquotedValue offset)

/-- Reads the attribute whose key starts with `first`, and returns it with what follows it. With
`unique`, its key must not be among those `seen`; this is found out before the value is read. -/
def read (unique : Bool) (seen : List RawAttribute) (offset : Nat) (first : Char)
    (text : List Char) : Except AttributeFault (RawAttribute × Nat × List Char) :=
  let key := first :: text.takeWhile (!endsKey ·)
  match skipBlanks (offset + Text.byteSize key) (text.dropWhile (!endsKey ·)) with
  | (stop, '=' :: rest) =>
    match earlier? unique seen key with
    | some earlier => .error (.duplicate offset earlier)
    | none =>
      match readValue (stop + 1) rest with
      | .ok (value, stop, rest) => .ok (⟨offset, key, value⟩, stop, rest)
      | .error fault => .error fault
  | (stop, _) => .error (.expectedEquals stop)

theorem length_lt_of_readValue {offset stop : Nat} {text value rest : List Char}
    (h : readValue offset text = .ok (value, stop, rest)) : rest.length < text.length := by
  unfold readValue at h
  have hskip := length_skipBlanks_le offset text
  split at h
  · cases h
  · rename_i quote after he
    rw [he] at hskip
    split at h
    · split at h
      · rename_i hc
        cases h
        have := Text.length_le_of_cutAt hc
        simp only [List.length_cons] at hskip this
        omega
      · cases h
    · cases h

theorem length_lt_of_read {unique : Bool} {seen : List RawAttribute} {offset stop : Nat}
    {first : Char} {text rest : List Char} {attr : RawAttribute}
    (h : read unique seen offset first text = .ok (attr, stop, rest)) :
    rest.length < text.length := by
  have hskip := length_skipBlanks_le
    (offset + Text.byteSize (first :: text.takeWhile (!endsKey ·))) (text.dropWhile (!endsKey ·))
  have hdrop := (List.dropWhile_suffix (l := text) (!endsKey ·)).length_le
  unfold read at h
  dsimp only at h
  split at h
  · rename_i after he
    rw [he] at hskip
    simp only [List.length_cons] at hskip
    split at h
    · cases h
    · split at h
      · rename_i hv
        cases h
        have := length_lt_of_readValue hv
        omega
      · cases h
  · cases h

/-- Reads attributes up to the end or the first fault. -/
def readAll (unique : Bool) (seen : List RawAttribute) (offset : Nat) (text : List Char) :
    List RawAttribute × Option AttributeFault :=
  match hs : skipBlanks offset text with
  | (_, []) => ([], none)
  | (offset', first :: rest) =>
    match h : read unique seen offset' first rest with
    | .error fault => ([], some fault)
    | .ok (attr, stop, after) =>
      have : after.length < text.length := by
        have hskip := length_skipBlanks_le offset text
        have := length_lt_of_read h
        rw [hs] at hskip
        simp only [List.length_cons] at hskip
        omega
      let (attrs, fault) := readAll unique (seen ++ [attr]) stop after
      (attr :: attrs, fault)
termination_by text.length

end RawAttribute

end XmlInspect.Markup
