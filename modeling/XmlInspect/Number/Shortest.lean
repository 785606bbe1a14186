import XmlInspect.Number.Decimal

/-!
# Shortest decimals

A number is written with the fewest digits that read back to it. The decimals that read back are
those in an interval around the number, half way to its neighbours on either side, with the ends if
the mantissa is even. For one digit, two digits and so on, the two neighbours of the number on that
decimal grid are tried. If any point of a grid is in the interval, one of these two is, so the first
grid with a hit has the fewest digits. Of two hits the nearer one is taken, and the upper one of two
that are equally near.
-/

namespace XmlInspect.Number

/-- The interval of what reads back as a number, with the number itself. All three are multiplied by
`den`. -/
structure Interval where
  low : Nat
  value : Nat
  high : Nat
  den : Nat
  /-- Whether the ends belong to the interval. -/
  closed : Bool

/-- The interval of a positive finite number. Below a power of two the neighbour is only half as far
away as above it. -/
def intervalOf (x : Float) : Interval :=
  let m := magnitude x
  let lowGap := if m.mantissa = 1 <<< fractionBits ∧ leastExponent < m.exponent then 1 else 2
  let (factor, den) := scale 1 4 m.exponent
  { low := (4 * m.mantissa - lowGap) * factor
    value := 4 * m.mantissa * factor
    high := (4 * m.mantissa + 2) * factor
    den := den
    closed := m.mantissa % 2 == 0 }

/-- The least power of ten above a quotient. -/
def decimalExponent (num den : Nat) : Int :=
  if den ≤ num then digitCount (num / den)
  else
    let reciprocal := (den + num - 1) / num
    1 - (digitCount (reciprocal - 1) : Int)

/-- Numerator and denominator of the grid with the unit `10 ^ exponent`, as factors of a value. -/
def gridScale (exponent : Int) : Nat × Nat :=
  if 0 ≤ exponent then (1, Nat.pow 10 exponent.toNat) else (Nat.pow 10 (-exponent).toNat, 1)

/-- The point of a decimal grid that reads back as the number, if there is one. -/
def onGrid? (interval : Interval) (exponent : Int) : Option Decimal :=
  let (up, down) := gridScale exponent
  let unit := down * interval.den
  let lower := interval.value * up / unit
  let inside (point : Nat) : Bool :=
    let place := point * unit
    let low := interval.low * up
    let high := interval.high * up
    if interval.closed then low ≤ place && place ≤ high else low < place && place < high
  let rest := interval.value * up % unit
  match inside lower, inside (lower + 1) with
  | true, true => some ⟨if 2 * rest < unit then lower else lower + 1, exponent⟩
  | true, false => some ⟨lower, exponent⟩
  | false, true => some ⟨lower + 1, exponent⟩
  | false, false => none

/-- Moves zeros at the end of the digits into the exponent, at most `fuel` of them. -/
def Decimal.stripZeros : Nat → Decimal → Decimal
  | 0, decimal => decimal
  | fuel + 1, ⟨digits, exponent⟩ =>
    if digits % 10 = 0 ∧ digits ≠ 0 then stripZeros fuel ⟨digits / 10, exponent + 1⟩
    else ⟨digits, exponent⟩

/-- The greatest number of digits that any number needs. -/
def enoughDigits : Nat := 17

/-- The shortest decimal of a positive finite number. -/
def shortest (x : Float) : Decimal :=
  let interval := intervalOf x
  let exponent := decimalExponent interval.value interval.den
  let found := (List.range enoughDigits).findSome? fun n ↦
    onGrid? interval (exponent - (n + 1 : Nat))
  (found.getD ⟨0, 0⟩).stripZeros (enoughDigits + 1)

/-! ## Writing -/

/-- A decimal without exponent, with a point only where there is a fraction. -/
def Decimal.positional (decimal : Decimal) : String :=
  let digits := Nat.toDigits 10 decimal.digits
  if 0 ≤ decimal.exponent then
    String.ofList (digits ++ List.replicate decimal.exponent.toNat '0')
  else
    let places := (-decimal.exponent).toNat
    let padded := List.replicate (places + 1 - digits.length) '0' ++ digits
    let whole := padded.take (padded.length - places)
    String.ofList (whole ++ '.' :: padded.drop (padded.length - places))

/-- A decimal with one digit before the point and an exponent. -/
def Decimal.scientific (decimal : Decimal) : String :=
  let digits := Nat.toDigits 10 decimal.digits
  let exponent := decimal.exponent + (digits.length - 1 : Nat)
  let fraction := if digits.length = 1 then "" else "." ++ String.ofList (digits.drop 1)
  String.ofList (digits.take 1) ++ fraction ++ "e" ++ toString exponent

/-- The magnitude of a number without exponent. -/
def positional (x : Float) : String :=
  if x == 0 then "0" else (shortest x.abs).positional

/-- A number in a message about the text of a query: always with a point, and with an exponent for
numbers from `10 ^ 16` up and below `10 ^ -4`. -/
def inMessage (x : Float) : String :=
  if x.isNaN then "NaN"
  else
    let sign := if isNegative x then "-" else ""
    let body :=
      if x.isInf then "inf"
      else if x == 0 then "0.0"
      else
        let decimal := shortest x.abs
        let size := decimal.exponent + digitCount decimal.digits
        if 17 ≤ size ∨ size < -3 then decimal.scientific
        else if 0 ≤ decimal.exponent then decimal.positional ++ ".0"
        else decimal.positional
    sign ++ body

/-- The text of a number as a query sees it: its shortest decimal, without exponent, with a point
only where there is a fraction, and without a sign for zero. -/
def text (x : Float) : String :=
  if x.isNaN then "NaN"
  else if x.isInf then if isNegative x then "-Infinity" else "Infinity"
  else if x == 0 then "0"
  else (if isNegative x then "-" else "") ++ positional x

end XmlInspect.Number
