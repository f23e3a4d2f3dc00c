import CodeGraph.Decimal.Binary64

/-!
# Reading decimals

A decimal is read as a significand of at most 64 bits and a power of ten.  The
significand is rounded to a double and then multiplied or divided once by the double
nearest to the power of ten, so a text may be read as a neighbour of the double nearest
to it.
-/

namespace CodeGraph.Decimal

/-- The largest power of ten that is scaled by in one step. -/
def maxPower : Nat := 308

/-- The largest significand. -/
def maxSignificand : Nat := 0xFFFFFFFFFFFFFFFF

/-- Takes digits into a significand while it stays within 64 bits.  The result is the
significand and the digits that were left out. -/
def absorb (significand : Nat) : List Nat → Nat × List Nat
  | [] => (significand, [])
  | d :: ds =>
    if significand * 10 + d ≤ maxSignificand then absorb (significand * 10 + d) ds
    else (significand, d :: ds)

/-- The double nearest to a power of ten up to `10 ^ maxPower`. -/
def powerOfTen (n : Nat) : Binary64 :=
  .ofNat (Nat.pow 10 n)

/-- Divides by `10 ^ maxPower` as many times as asked, or until nothing is left. -/
def shrink? (x : Binary64) : (steps : Nat) → Option Binary64
  | 0 => some x
  | steps + 1 =>
    if x.isZero then some x
    else (x.over? (powerOfTen maxPower)).bind (shrink? · steps)

/-- Scales a double by a power of ten; `none` when the result is out of range.  Powers
below `10 ^ -maxPower` are divided out in several steps. -/
def scale? (x : Binary64) (power : Int) : Option Binary64 :=
  if 0 ≤ power then
    if power ≤ maxPower then x.times? (powerOfTen power.toNat)
    else if x.isZero then some x else none
  else
    let down := (-power).toNat
    (shrink? x ((down - 1) / maxPower)).bind fun y =>
      if y.isZero then some y else y.over? (powerOfTen ((down - 1) % maxPower + 1))

/-- The double read from a sign, a significand and a power of ten. -/
def toBinary64? (negative : Bool) (significand : Nat) (power : Int) : Option Binary64 :=
  (scale? (.ofNat significand) power).map (·.withSign negative)

end CodeGraph.Decimal
