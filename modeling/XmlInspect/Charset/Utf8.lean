/-!
# UTF-8

A character takes one to four bytes. A longer form is right only for a code point that needs it,
and the surrogates and everything beyond 10FFFF are no characters. So a form is judged by the
number it spells: it must be a character, and its size must be the size of the form.
-/

namespace XmlInspect.Utf8

/-- The low six bits of a continuation byte. -/
def tail? (byte : UInt8) : Option Nat :=
  if 0x80 ≤ byte ∧ byte < 0xC0 then some (byte.toNat - 0x80) else none

/-- The character with code point `n`, if it takes exactly `size` bytes. -/
def charOfSize? (size n : Nat) : Option Char :=
  if n.isValidChar ∧ (Char.ofNat n).utf8Size = size then some (Char.ofNat n) else none

/-- The character of `size` bytes whose first byte contributes `lead` and whose others are `tails`.
A form that is cut short spells a number too small for its size. -/
def compose? (size lead : Nat) (tails : List UInt8) : Option Char := do
  let n ← tails.foldlM (fun n byte ↦ (tail? byte).map (64 * n + ·)) lead
  charOfSize? size n

/-- The first character of a byte sequence, and the bytes after it. -/
def next? : List UInt8 → Option (Char × List UInt8)
  | [] => none
  | a :: rest =>
    if a < 0x80 then some (Char.ofNat a.toNat, rest)
    else if a < 0xC0 then none
    else if a < 0xE0 then (compose? 2 (a.toNat - 0xC0) (rest.take 1)).map (·, rest.drop 1)
    else if a < 0xF0 then (compose? 3 (a.toNat - 0xE0) (rest.take 2)).map (·, rest.drop 2)
    else if a < 0xF8 then (compose? 4 (a.toNat - 0xF0) (rest.take 3)).map (·, rest.drop 3)
    else none

theorem length_lt_of_next? {bytes rest : List UInt8} {c : Char} (h : next? bytes = some (c, rest)) :
    rest.length < bytes.length := by
  have hdrop (k : Nat) (found : Option Char) (a : UInt8) (tail : List UInt8)
      (h : found.map (·, tail.drop k) = some (c, rest)) : rest.length < (a :: tail).length := by
    obtain ⟨_, _, he⟩ := Option.map_eq_some_iff.1 h
    cases he
    simp only [List.length_drop, List.length_cons]
    omega
  cases bytes with
  | nil => cases h
  | cons a tail =>
    rw [next?] at h
    split at h
    · cases h
      simp
    split at h
    · cases h
    split at h
    · exact hdrop 1 _ a tail h
    split at h
    · exact hdrop 2 _ a tail h
    split at h
    · exact hdrop 3 _ a tail h
    · cases h

/-- The text that bytes stand for, if all of them are part of a character. -/
def decode (bytes : List UInt8) : Option (List Char) :=
  match bytes with
  | [] => some []
  | b :: rest =>
    match h : next? (b :: rest) with
    | none => none
    | some (c, after) =>
      have : after.length < rest.length + 1 := length_lt_of_next? h
      (decode after).map (c :: ·)
termination_by bytes.length
decreasing_by rw [List.length_cons]; exact this

/-- The text that bytes stand for, where each byte that is no part of a character is read as the
replacement character. -/
def decodeLossy (bytes : List UInt8) : List Char :=
  match bytes with
  | [] => []
  | b :: rest =>
    match h : next? (b :: rest) with
    | none => '\uFFFD' :: decodeLossy rest
    | some (c, after) =>
      have : after.length < rest.length + 1 := length_lt_of_next? h
      c :: decodeLossy after
termination_by bytes.length

end XmlInspect.Utf8
