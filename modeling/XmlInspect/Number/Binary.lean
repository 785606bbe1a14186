/-!
# Binary floating point

Numbers in queries are binary floating point numbers of 64 bits. Where a result must be exact to
the last bit it is computed on natural numbers: a finite number is a mantissa times a power of
two, and a quotient of natural numbers is rounded to the nearest such number, a half to the even
mantissa. The general conversions of the standard library cut digits off before they round and so
may miss the nearest number.
-/

namespace XmlInspect.Number

/-- The number of fraction bits. -/
def fractionBits : Nat := 52

/-- The least exponent of two. -/
def leastExponent : Int := -1074

/-- The bits of an infinite number. -/
def infinityBits : Nat := 0x7FF0000000000000

/-- A finite number without its sign: `mantissa * 2 ^ exponent`. -/
structure Magnitude where
  mantissa : Nat
  exponent : Int
  deriving DecidableEq, Repr

/-- Takes a finite number apart. -/
def magnitude (x : Float) : Magnitude :=
  let bits := x.toBits.toNat
  let fraction := bits % (1 <<< fractionBits)
  let biased := (bits >>> fractionBits) % 2048
  if biased = 0 then ⟨fraction, leastExponent⟩
  else ⟨(1 <<< fractionBits) + fraction, leastExponent + (biased - 1 : Nat)⟩

/-- Whether a number has its sign bit set. -/
def isNegative (x : Float) : Bool := 1 <<< 63 ≤ x.toBits.toNat

/-- A quotient times a power of two, as numerator and denominator. -/
def scale (num den : Nat) (exponent : Int) : Nat × Nat :=
  if 0 ≤ exponent then (num <<< exponent.toNat, den) else (num, den <<< (-exponent).toNat)

/-- The nearest natural number to a quotient, a half going to the even one. -/
def roundQuotient (num den : Nat) : Nat :=
  let floor := num / den
  let rest := num % den
  if 2 * rest < den then floor
  else if den < 2 * rest then floor + 1
  else if floor % 2 = 0 then floor
  else floor + 1

/-- The exponent at which the mantissa of a quotient has its full number of bits, but not less
than the least exponent. -/
def exponentOf (num den : Nat) : Int :=
  let guess : Int := (num.log2 : Int) - den.log2 - 53
  let (n, d) := scale num den (-guess)
  let exponent := if n < d <<< 53 then guess else guess + 1
  max exponent leastExponent

/-- The bits of the number nearest to a quotient. A mantissa that rounds up to one bit more
carries into the exponent, which is just the number meant. -/
def quotientBits (num den : Nat) : Nat :=
  if num = 0 then 0
  else
    let exponent := exponentOf num den
    let (n, d) := scale num den (-exponent)
    let mantissa := roundQuotient n d
    let steps := (exponent - leastExponent).toNat
    min ((steps <<< fractionBits) + mantissa) infinityBits

/-- The number nearest to a quotient. -/
def ofQuotient (num den : Nat) : Float := Float.ofBits (quotientBits num den).toUInt64

/-- The number that is nearest to a mantissa times a power of two. -/
def ofMagnitude (value : Magnitude) : Float :=
  let (num, den) := scale value.mantissa 1 value.exponent
  ofQuotient num den

/-- What is no number. -/
def nan : Float := 0 / 0

/-- The remainder of a division towards zero, which is exact and has the sign of the dividend. -/
def remainder (x y : Float) : Float :=
  if x.isNaN || y.isNaN || x.isInf || y == 0 then nan
  else if y.isInf then x
  else
    let a := magnitude x
    let b := magnitude y
    let exponent := min a.exponent b.exponent
    let m := a.mantissa <<< (a.exponent - exponent).toNat
    let n := b.mantissa <<< (b.exponent - exponent).toNat
    let rest := ofMagnitude ⟨m % n, exponent⟩
    if isNegative x then -rest else rest

end XmlInspect.Number
