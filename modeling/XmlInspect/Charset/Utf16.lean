/-!
# UTF-16

Bytes pair up to units of sixteen bits in one of two orders. A unit is a character by itself
unless it is a surrogate; a high surrogate and the low surrogate after it are one character, and
a surrogate in any other place is none.
-/

namespace XmlInspect

/-- Which byte of a unit comes first. -/
inductive ByteOrder where
  | little
  | big
  deriving DecidableEq, Repr

namespace Utf16

/-- The unit that two bytes in sequence stand for. -/
def unit : ByteOrder → UInt8 → UInt8 → Nat
  | .little, a, b => b.toNat * 0x100 + a.toNat
  | .big, a, b => a.toNat * 0x100 + b.toNat

/-- The units of a byte sequence, unless its last byte is left over. -/
def units (order : ByteOrder) : List UInt8 → Option (List Nat)
  | [] => some []
  | [_] => none
  | a :: b :: rest => (units order rest).map (unit order a b :: ·)

def isHighSurrogate (unit : Nat) : Bool := 0xD800 ≤ unit && unit < 0xDC00

def isLowSurrogate (unit : Nat) : Bool := 0xDC00 ≤ unit && unit < 0xE000

/-- The text that units stand for. -/
def decodeUnits : List Nat → Option (List Char)
  | [] => some []
  | [u] => if isHighSurrogate u || isLowSurrogate u then none else some [Char.ofNat u]
  | u :: v :: rest =>
    if isHighSurrogate u then
      if isLowSurrogate v then
        let n := 0x10000 + (u - 0xD800) * 0x400 + (v - 0xDC00)
        (decodeUnits rest).map (Char.ofNat n :: ·)
      else
        none
    else if isLowSurrogate u then
      none
    else
      (decodeUnits (v :: rest)).map (Char.ofNat u :: ·)

/-- The text that bytes stand for. -/
def decode (order : ByteOrder) (bytes : List UInt8) : Option (List Char) :=
  (units order bytes).bind decodeUnits

end Utf16

end XmlInspect
