import Arithmancy.Number.Binary64
import Arithmancy.Number.Decimal

/-!
# The fewest digits that read back

The reals that round to a given 64-bit number form an interval: from halfway to
the neighbour below to halfway to the neighbour above, with its ends exactly when
the significand is even. Among the decimals in that interval the text of a number
is one with the fewest digits, and among those the nearest. Everything is decided
in exact arithmetic on naturals.

An integer up to `2 ^ 53` needs no search: its own digits are its text.
-/

namespace Arithmancy

namespace Binary64

namespace Shortest

/-- A positive number `significand * 2 ^ exponent` whose neighbours matter. -/
structure Target where
  /-- The significand of the number. -/
  significand : Nat
  /-- The power of two that scales it. -/
  exponent : Int
  /-- Whether the gap below is half the gap above, as it is at a power of two. -/
  narrowBelow : Bool
deriving DecidableEq, Repr

/-- The magnitude of a finite 64-bit number. -/
def Target.ofFinite (d : Finite) : Target :=
  ⟨d.significand, d.exponent, d.significand == Nat.pow 2 52 && -1074 < d.exponent⟩

/-- Compares `a * 10 ^ i` with `n * 2 ^ j`. -/
def compareScaled (a : Nat) (i : Int) (n : Nat) (j : Int) : Ordering :=
  compare (a * Nat.pow 10 i.toNat * Nat.pow 2 (-j).toNat)
    (n * Nat.pow 2 j.toNat * Nat.pow 10 (-i).toNat)

/-- **Whether `a * 10 ^ i` lies among the reals that round to the number.** -/
def Target.readsBack (x : Target) (a : Nat) (i : Int) : Bool :=
  let low := if x.narrowBelow then 4 * x.significand - 1 else 4 * x.significand - 2
  let high := 4 * x.significand + 2
  let closed := x.significand % 2 == 0
  let fromLow := compareScaled a i low (x.exponent - 2)
  let toHigh := compareScaled a i high (x.exponent - 2)
  (fromLow == .gt || (closed && fromLow == .eq)) && (toHigh == .lt || (closed && toHigh == .eq))

/-- The least power of ten above the number, as its exponent: estimated from the
binary logarithm, then found by comparing. -/
def Target.scale (x : Target) : Int :=
  let estimate := ((x.significand.log2 : Int) + x.exponent) * 1233 / 4096 - 1
  let steps := (List.range 5).map fun (i : Nat) => estimate + (i : Int)
  (steps.find? fun k => compareScaled 1 k x.significand x.exponent == .gt).getD (estimate + 5)

/-- The whole multiples of `10 ^ i` in the number. -/
def Target.multiples (x : Target) (i : Int) : Nat :=
  (x.significand * Nat.pow 2 x.exponent.toNat * Nat.pow 10 (-i).toNat)
    / (Nat.pow 2 (-x.exponent).toNat * Nat.pow 10 i.toNat)

/-- The better of the two neighbours of the number on the grid `10 ^ i`, if one
of them reads back: the nearer, and of two equally near the upper. -/
def Target.onGrid? (x : Target) (i : Int) : Option (Nat × Int) :=
  let below := x.multiples i
  let above := below + 1
  match x.readsBack below i, x.readsBack above i with
  | true, true =>
    if compareScaled (below + above) i (2 * x.significand) x.exponent == .gt
    then some (below, i) else some (above, i)
  | true, false => some (below, i)
  | false, true => some (above, i)
  | false, false => none

/-- Moves trailing zeros of the digits into the exponent, at most `fuel` of
them. -/
def dropZeros : Nat → Nat → Int → Nat × Int
  | 0, a, i => (a, i)
  | fuel + 1, a, i => if a % 10 = 0 then dropZeros fuel (a / 10) (i + 1) else (a, i)

/-- **The digits of a positive number**: the coarsest decimal grid with a point
that reads back, seventeen digits at most. -/
def Target.digits (x : Target) : Nat × Int :=
  let k := x.scale
  let (a, i) := ((List.range 17).findSome? fun (n : Nat) => x.onGrid? (k - (n : Int) - 1)).getD
    (x.multiples (k - 17), k - 17)
  dropZeros 17 a i

end Shortest

/-- The text of the magnitude of a finite number. -/
def magnitudeText (d : Finite) : String :=
  if d.isWhole && d.whole ≤ Nat.pow 2 53 then toString d.whole
  else
    let (a, i) := (Shortest.Target.ofFinite d).digits
    Decimal.layout a i

/-- **The text of a number**: the fewest digits that read back, never an
exponent, no point on an integer, and a sign also on a negative zero. -/
def text (x : Float) : String :=
  match decode? x with
  | some d => if d.negative then "-" ++ magnitudeText d else magnitudeText d
  | none => if x.isNaN then "NaN" else if x < 0 then "-inf" else "inf"

/-- The number nearest to a decimal; far beyond the range of finite numbers the
answer needs no arithmetic. -/
def ofDecimal : Decimal → Float
  | .infinite negative => if negative then -(1 / 0) else 1 / 0
  | .undefined => 0 / 0
  | .finite negative digits exponent =>
    let size := ((toString digits).length : Int) + exponent
    let magnitude :=
      if digits = 0 || size < -400 then 0
      else if 400 < size then 1 / 0
      else Float.ofScientific digits (exponent < 0) exponent.natAbs
    if negative then -magnitude else magnitude

end Binary64

end Arithmancy
