/-!
# Binary floating-point numbers

A `Binary64` is the 64-bit pattern of a double.  Everything is computed on the pattern
with exact natural numbers: `Binary64.round?` is the one rounding step (to nearest, ties
to even) through which products, quotients and integers pass.
-/

namespace CodeGraph

/-- A double, given by its bit pattern. -/
structure Binary64 where
  bits : UInt64
deriving DecidableEq, Inhabited

namespace Binary64

/-- The number of significand bits below the leading one. -/
def fractionBits : Nat := 52

/-- The unit of the exponent field, which is also the leading bit of a significand. -/
def leadingBit : Nat := 0x10000000000000

/-- The sign bit. -/
def signBit : Nat := 0x8000000000000000

/-- The bit pattern of positive infinity, the first pattern beyond the finite ones. -/
def infinityBits : Nat := 0x7FF0000000000000

/-- Whether the sign bit is set. -/
def isNegative (x : Binary64) : Bool :=
  signBit ≤ x.bits.toNat

/-- The pattern without its sign bit. -/
def magnitudeBits (x : Binary64) : Nat :=
  x.bits.toNat % signBit

/-- Neither an infinity nor a NaN. -/
def isFinite (x : Binary64) : Bool :=
  x.magnitudeBits < infinityBits

/-- The biased exponent. -/
def exponentField (x : Binary64) : Nat :=
  x.magnitudeBits / leadingBit

/-- The significand of the magnitude, with its leading one unless it is subnormal. -/
def significand (x : Binary64) : Nat :=
  let fraction := x.magnitudeBits % leadingBit
  if x.exponentField = 0 then fraction else fraction + leadingBit

/-- The exponent `q` for which the magnitude is `significand * 2 ^ q`. -/
def exponent (x : Binary64) : Int :=
  (max x.exponentField 1 : Nat) - 1075

/-- The magnitude of a finite number as a numerator and a denominator. -/
def ratio (x : Binary64) : Nat × Nat :=
  let q := x.exponent
  if 0 ≤ q then (x.significand <<< q.toNat, 1) else (x.significand, 1 <<< (-q).toNat)

/-- A pattern from a sign and the pattern of a magnitude. -/
def ofMagnitude (negative : Bool) (magnitude : Nat) : Binary64 :=
  ⟨UInt64.ofNat (magnitude + if negative then signBit else 0)⟩

/-! ### Rounding -/

/-- The quotient rounded to the nearest integer, a half to the even neighbour. -/
def divNearest (num den : Nat) : Nat :=
  let quotient := num / den
  let rest := num % den
  if 2 * rest < den then quotient
  else if 2 * rest = den then quotient + quotient % 2
  else quotient + 1

/-- An exponent `q` for which `num / den` has at least 53 bits before the point when
divided by `2 ^ q`, and at most one more; never below the exponent of the subnormals. -/
def scale (num den : Nat) : Int :=
  let guess : Int := (num.log2 : Int) - den.log2 - fractionBits
  let enough := if 0 ≤ guess then den <<< (guess.toNat + fractionBits) ≤ num
    else den <<< fractionBits ≤ num <<< (-guess).toNat
  max (if enough then guess else guess - 1) (-1074)

/-- The pattern of the double nearest to `num / den`; `none` when it is out of range. -/
def round? (num den : Nat) : Option Nat :=
  if num = 0 then some 0
  else
    let q := scale num den
    let units := if 0 ≤ q then divNearest num (den <<< q.toNat)
      else divNearest (num <<< (-q).toNat) den
    let magnitude := (q + 1074).toNat * leadingBit + units
    if magnitude < infinityBits then some magnitude else none

/-- The double nearest to a natural number below `2 ^ 1023`. -/
def ofNat (n : Nat) : Binary64 :=
  ofMagnitude false ((round? n 1).getD infinityBits)

/-- The same magnitude with the given sign. -/
def withSign (negative : Bool) (x : Binary64) : Binary64 :=
  ofMagnitude negative x.magnitudeBits

/-- The rounded product of two magnitudes. -/
def times? (x y : Binary64) : Option Binary64 :=
  let (a, b) := x.ratio
  let (c, d) := y.ratio
  (round? (a * c) (b * d)).map (ofMagnitude false)

/-- The rounded quotient of two magnitudes. -/
def over? (x y : Binary64) : Option Binary64 :=
  let (a, b) := x.ratio
  let (c, d) := y.ratio
  (round? (a * d) (b * c)).map (ofMagnitude false)

/-- Whether the number is a zero of either sign. -/
def isZero (x : Binary64) : Bool :=
  x.magnitudeBits == 0

/-! ### Single precision -/

/-- The double equal to a single-precision number given by its bit pattern.  Infinities
and NaNs become infinities and NaNs. -/
def ofBinary32 (bits : UInt32) : Binary64 :=
  let negative := decide (0x80000000 ≤ bits.toNat)
  let field : Nat := bits.toNat / 0x800000 % 0x100
  let fraction := bits.toNat % 0x800000
  if field = 255 then ofMagnitude negative (infinityBits + fraction <<< 29)
  else
    let significand := if field = 0 then fraction else fraction + 0x800000
    let q : Int := (max field 1 : Nat) - 150
    let magnitude := if 0 ≤ q then round? (significand <<< q.toNat) 1
      else round? significand (1 <<< (-q).toNat)
    ofMagnitude negative (magnitude.getD infinityBits)

end Binary64

end CodeGraph
