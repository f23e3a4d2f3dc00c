import CodeGraph.Decimal.Binary64

/-!
# Shortest decimals

The decimal text of a double uses the fewest digits that read back as the same double,
and among those the digits nearest to it.  A double stands for the interval of reals that
round to it; for one digit, two digits and so on the two neighbours on the decimal grid
are tested against that interval, in exact arithmetic.
-/

namespace CodeGraph.Decimal

/-- The positive reals that round to a double: the double and the ends of its interval
over a common denominator. -/
structure Interval where
  low : Nat
  middle : Nat
  high : Nat
  den : Nat
  /-- The ends round to the double as well. -/
  closed : Bool

/-- The interval of a positive finite double.  Below a power of two the neighbours are
half as far away. -/
def intervalOf (x : Binary64) : Interval :=
  let m := x.significand
  let below := if m = Binary64.leadingBit && 1 < x.exponentField then 1 else 2
  let q := x.exponent - 2
  let unit := if 0 ≤ q then 1 <<< q.toNat else 1
  { low := (4 * m - below) * unit
    middle := 4 * m * unit
    high := (4 * m + 2) * unit
    den := if 0 ≤ q then 1 else 1 <<< (-q).toNat
    closed := m % 2 = 0 }

/-- `digits * 10 ^ power`, as a numerator over a denominator. -/
def gridPoint (digits : Nat) (power : Int) : Nat × Nat :=
  if 0 ≤ power then (digits * Nat.pow 10 power.toNat, 1) else (digits, Nat.pow 10 (-power).toNat)

namespace Interval

/-- Whether a decimal lies in the interval. -/
def holds (i : Interval) (digits : Nat) (power : Int) : Bool :=
  let (num, den) := gridPoint digits power
  let point := num * i.den
  if i.closed then i.low * den ≤ point && point ≤ i.high * den
  else i.low * den < point && point < i.high * den

/-- The distance of a decimal from the middle, scaled by a factor that depends on the
power alone. -/
def distance (i : Interval) (digits : Nat) (power : Int) : Nat :=
  let (num, den) := gridPoint digits power
  let point := num * i.den
  let middle := i.middle * den
  if point ≤ middle then middle - point else point - middle

/-- The power of ten of the leading digit of the middle. -/
def leading (i : Interval) : Int :=
  let guess : Int := (toString i.middle).length - (toString i.den).length
  let (num, den) := gridPoint 1 guess
  if num * i.den ≤ i.middle * den then guess else guess - 1

/-- The multiple of `10 ^ power` next below the middle, in units of `10 ^ power`. -/
def floor (i : Interval) (power : Int) : Nat :=
  let (num, den) := gridPoint 1 power
  i.middle * den / (i.den * num)

/-- The grid point of `power` that stands for the middle: of the two neighbours the one
inside the interval, the nearer if both are, the even one if they are equally near. -/
def onGrid? (i : Interval) (power : Int) : Option Nat :=
  let down := i.floor power
  match i.holds down power, i.holds (down + 1) power with
  | false, false => none
  | true, false => some down
  | false, true => some (down + 1)
  | true, true =>
    let a := i.distance down power
    let b := i.distance (down + 1) power
    if a < b then some down
    else if b < a then some (down + 1)
    else some (down + down % 2)

end Interval

/-- The shortest decimal `(digits, power)` of at most `count + tries` digits, looking at
`count + 1` digits first. -/
def search (i : Interval) (count : Nat) : (tries : Nat) → Nat × Int
  | 0 => (i.floor (i.leading - count), i.leading - count)
  | tries + 1 =>
    let power := i.leading - count
    match i.onGrid? power with
    | some digits => (digits, power)
    | none => search i (count + 1) tries

/-- Removes trailing zeros from the digits. -/
def stripZeros (digits : Nat) (power : Int) : Nat × Int :=
  if h : digits ≠ 0 ∧ digits % 10 = 0 then stripZeros (digits / 10) (power + 1)
  else (digits, power)
termination_by digits
decreasing_by omega

/-- The shortest decimal that reads back as a positive finite double: `digits * 10 ^ power`
where `digits` does not end in a zero. -/
def shortest (x : Binary64) : Nat × Int :=
  let (digits, power) := search (intervalOf x) 0 17
  stripZeros digits power

/-! ### Text -/

/-- How the decimal text of a double is laid out. -/
structure Layout where
  /-- The least exponent of the leading digit written without an exponent part. -/
  minPositional : Int
  /-- The first exponent of the leading digit written with an exponent part. -/
  maxPositional : Int
deriving Repr

/-- Numbers from `0.00001` to below `1e16` are written positionally. -/
def plain : Layout := ⟨-5, 16⟩

/-- The text of a finite double: at least one digit after the point in positional form,
a signed exponent otherwise. -/
def text (layout : Layout) (x : Binary64) : String :=
  let sign := if x.isNegative then "-" else ""
  if x.isZero then sign ++ "0.0"
  else
    let (digits, power) := shortest x
    let ds := (toString digits).toList
    let e : Int := power + ds.length - 1
    let body :=
      if layout.minPositional ≤ e ∧ e < layout.maxPositional then
        if 0 ≤ power then
          String.ofList (ds ++ List.replicate power.toNat '0') ++ ".0"
        else if 0 ≤ e then
          String.ofList (ds.take (e.toNat + 1)) ++ "." ++ String.ofList (ds.drop (e.toNat + 1))
        else
          "0." ++ String.ofList (List.replicate (-e - 1).toNat '0' ++ ds)
      else
        let lead := String.ofList (ds.take 1)
        let tail := ds.drop 1
        let mantissa := if tail.isEmpty then lead else lead ++ "." ++ String.ofList tail
        mantissa ++ "e" ++ (if 0 ≤ e then "+" else "-") ++ toString e.natAbs
    sign ++ body

end CodeGraph.Decimal
