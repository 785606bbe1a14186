/-!
# Shift_JIS

Single bytes are ASCII, the control 80 and the half-width katakana; all other characters take two
bytes. Of the two-byte characters these are the rows that are contiguous in Unicode as well:
full-width digits and letters, hiragana and katakana. Any other pair is refused.
-/

namespace XmlInspect.ShiftJis

/-- The character of a single byte. -/
def single? (byte : UInt8) : Option Char :=
  if byte ≤ 0x80 then some (Char.ofNat byte.toNat)
  else if 0xA1 ≤ byte ∧ byte ≤ 0xDF then some (Char.ofNat (0xFF61 + (byte.toNat - 0xA1)))
  else none

/-- Pairs with the lead `lead` and a trail from `first` to `last` stand for the characters from
`char` on. -/
structure Row where
  lead : UInt8
  first : UInt8
  last : UInt8
  char : Nat

def rows : List Row := [
  ⟨0x82, 0x4F, 0x58, 0xFF10⟩, ⟨0x82, 0x60, 0x79, 0xFF21⟩, ⟨0x82, 0x81, 0x9A, 0xFF41⟩,
  ⟨0x82, 0x9F, 0xF1, 0x3041⟩, ⟨0x83, 0x40, 0x7E, 0x30A1⟩, ⟨0x83, 0x80, 0x96, 0x30E0⟩]

/-- The character of two bytes. -/
def pair? (lead trail : UInt8) : Option Char :=
  (rows.find? fun row ↦ row.lead == lead && row.first ≤ trail && trail ≤ row.last).map fun row ↦
    Char.ofNat (row.char + (trail.toNat - row.first.toNat))

/-- The text that bytes stand for. -/
def decode : List UInt8 → Option (List Char)
  | [] => some []
  | [a] => (single? a).map ([·])
  | a :: b :: rest =>
    match single? a with
    | some c => (decode (b :: rest)).map (c :: ·)
    | none =>
      match pair? a b with
      | some c => (decode rest).map (c :: ·)
      | none => none

end XmlInspect.ShiftJis
