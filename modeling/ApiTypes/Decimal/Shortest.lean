/-!
# Shortest decimals

A finite binary64 value is `m · 2^q`.  `shortest` finds the decimal of fewest
significant digits among those that lie in the value's rounding interval, and
of these the one nearest to the value.  All arithmetic is exact, on natural
numbers.  For each number of digits only the two points of the decimal grid
next to the value are tested: if any point of a grid lies in the interval, one
of these two does.
-/

namespace ApiTypes.Decimal

/-- The decimal number `digits · 10^exponent`. -/
structure Scaled where
  digits : Nat
  exponent : Int
deriving DecidableEq, Repr

/-- A positive fraction with the bounds of its rounding interval, all over one
denominator. -/
structure Interval where
  low : Nat
  value : Nat
  high : Nat
  denominator : Nat
  /-- Whether the bounds themselves round to the value. -/
  closed : Bool

/-- The rounding interval of `m · 2^q`; below a power of two the neighbours are
half as far away, `tight` says that `m` is the least significand of its
exponent. -/
def Interval.ofBinary (m : Nat) (q : Int) (tight : Bool) : Interval :=
  let low := if tight then 4 * m - 1 else 4 * m - 2
  let shift := q - 2
  if 0 ≤ shift then
    let unit := Nat.pow 2 shift.toNat
    ⟨low * unit, 4 * m * unit, (4 * m + 2) * unit, 1, m % 2 == 0⟩
  else
    ⟨low, 4 * m, 4 * m + 2, Nat.pow 2 (-shift).toNat, m % 2 == 0⟩

def Interval.holds (i : Interval) (digits : Nat) (exponent : Int) : Bool :=
  let point := if 0 ≤ exponent then digits * Nat.pow 10 exponent.toNat * i.denominator
    else digits * i.denominator
  let scale := if 0 ≤ exponent then 1 else Nat.pow 10 (-exponent).toNat
  if i.closed then i.low * scale ≤ point && point ≤ i.high * scale
  else i.low * scale < point && point < i.high * scale

/-- The largest grid point `digits · 10^exponent` not above the value. -/
def Interval.floorAt (i : Interval) (exponent : Int) : Nat :=
  if 0 ≤ exponent then i.value / (i.denominator * Nat.pow 10 exponent.toNat)
  else i.value * Nat.pow 10 (-exponent).toNat / i.denominator

/-- Compares the distances of the value to `digits` and to `digits + 1` on the
grid of `10^exponent`: below, the lower one is nearer. -/
def Interval.compareHalf (i : Interval) (digits : Nat) (exponent : Int) : Ordering :=
  if 0 ≤ exponent then
    compare (2 * i.value) ((2 * digits + 1) * Nat.pow 10 exponent.toNat * i.denominator)
  else compare (2 * i.value * Nat.pow 10 (-exponent).toNat) ((2 * digits + 1) * i.denominator)

/-- The point of the grid of `10^exponent` that stands for the value, if any. -/
def Interval.onGrid (i : Interval) (exponent : Int) : Option Nat :=
  let d := i.floorAt exponent
  match i.holds d exponent, i.holds (d + 1) exponent with
  | true, true =>
    match i.compareHalf d exponent with
    | .lt => some d
    | .gt => some (d + 1)
    | .eq => some (if d % 2 == 0 then d else d + 1)
  | true, false => some d
  | false, true => some (d + 1)
  | false, false => none

/-- The least `k` from `k` upwards with `value < 10^k`, in at most `fuel` steps. -/
def Interval.magnitude (i : Interval) : Nat → Int → Int
  | 0, k => k
  | fuel + 1, k => if i.floorAt k == 0 then k else i.magnitude fuel (k + 1)

/-- The first grid from `exponent` downwards that holds a point of the interval. -/
def Interval.firstGrid (i : Interval) : Nat → Int → Scaled
  | 0, exponent => ⟨i.floorAt exponent, exponent⟩
  | fuel + 1, exponent =>
    match i.onGrid exponent with
    | some d => ⟨d, exponent⟩
    | none => i.firstGrid fuel (exponent - 1)

/-- Moves trailing zeros of the digits into the exponent. -/
def Scaled.trim : Nat → Scaled → Scaled
  | 0, s => s
  | fuel + 1, s =>
    if s.digits % 10 == 0 && s.digits != 0 then
      trim fuel ⟨s.digits / 10, s.exponent + 1⟩
    else s

/-- The shortest decimal that rounds to `m · 2^q`, for `m > 0`. -/
def shortest (m : Nat) (q : Int) (tight : Bool) : Scaled :=
  let i := Interval.ofBinary m q tight
  -- the value is at least `2^q` and below `2^(q + 53)`; `0.30102` is below `log 2`
  let start := if 0 ≤ q then q * 30102 / 100000 else q * 30103 / 100000 - 1
  let k := i.magnitude 40 start
  (i.firstGrid 17 (k - 1)).trim 20

end ApiTypes.Decimal
