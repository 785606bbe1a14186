import XmlInspect.Number.Binary

/-!
# Decimals

A decimal is a natural number times a power of ten. In a query it is written as a row of digits with
at most one point in it and at least one digit around it. No exponent and no sign belong to it; a
sign before it is the business of whoever reads signs.
-/

namespace XmlInspect.Number

/-- The number that a row of digits spells. -/
def digitsValue (digits : List Char) : Nat :=
  digits.foldl (fun n c ↦ 10 * n + (c.toNat - '0'.toNat)) 0

/-- The decimal `digits * 10 ^ exponent`. -/
structure Decimal where
  digits : Nat
  exponent : Int
  deriving DecidableEq, Repr

/-- The number of decimal digits. -/
def digitCount (n : Nat) : Nat := if n = 0 then 0 else (Nat.toDigits 10 n).length

/-- The power of ten that is less than the greatest number, while the next one is greater. -/
def greatestPower : Nat := 308

/-- Whether the number nearest to a decimal is infinite. How many digits there are before the point
settles all but a narrow range, so no great power is computed. -/
def Decimal.isInfinite (decimal : Decimal) : Bool :=
  let size := decimal.exponent + digitCount decimal.digits
  if decimal.digits = 0 ∨ size ≤ greatestPower then false
  else if greatestPower + 1 < size then true
  else if 0 ≤ decimal.exponent then
    quotientBits (decimal.digits * Nat.pow 10 decimal.exponent.toNat) 1 == infinityBits
  else
    quotientBits decimal.digits (Nat.pow 10 (-decimal.exponent).toNat) == infinityBits

/-- Reads a decimal to the nearest number. -/
def readDecimal? (text : List Char) : Option Float :=
  let whole := text.takeWhile Char.isDigit
  match text.dropWhile Char.isDigit with
  | [] => if whole.isEmpty then none else some (ofQuotient (digitsValue whole) 1)
  | point :: fraction =>
    if point = '.' ∧ fraction.all Char.isDigit ∧ ¬ (whole.isEmpty ∧ fraction.isEmpty) then
      some (ofQuotient (digitsValue (whole ++ fraction)) (Nat.pow 10 fraction.length))
    else
      none

end XmlInspect.Number
