import Arithmancy.Number.Scalar

/-!
# The exact reading

Rationals read every rule of the game without rounding. A division by zero is refused
by the operators before it is asked for.

Roots, logarithms and powers leave the rationals, and this reading does not settle what
they are: `Exact.Operations` is any choice of the three, and the laws about exact amounts
are stated for every choice. The choice by which the rules are run,
`Exact.operations`, gives a root to the squares of rationals, a logarithm to the powers
of two, and a power to exponents that are integers. It refuses everything else, some
rational values included: `4` to the power `1/2` has none.
-/

namespace Arithmancy

namespace Exact

/-- **Roots, logarithms and powers of rationals**, where they have a value. -/
class Operations where
  /-- The square root of a number that is not negative. -/
  root? : Rat → Option Rat
  /-- The binary logarithm of a positive number. -/
  logarithm? : Rat → Option Rat
  /-- The power of a number to any exponent. -/
  power? : Rat → Rat → Option Rat

/-- Refines a lower bound `r` of the root of `n`, one binary digit at a time from
digit `k - 1` downward. -/
def refineRoot (n : Nat) : Nat → Nat → Nat
  | 0, r => r
  | k + 1, r =>
    let larger := r + Nat.pow 2 k
    refineRoot n k (if larger * larger ≤ n then larger else r)

/-- The root of a square number. -/
def naturalRoot? (n : Nat) : Option Nat :=
  let r := refineRoot n (n.log2 / 2 + 1) 0
  if r * r = n then some r else none

/-- The root of a square of a rational. -/
def root? (x : Rat) : Option Rat :=
  match naturalRoot? x.num.natAbs, naturalRoot? x.den with
  | some p, some q => some ((p : Rat) / q)
  | _, _ => none

/-- The exponent of a power of two. -/
def logarithm? (x : Rat) : Option Rat :=
  let p := x.num.natAbs.log2
  let q := x.den.log2
  if x.num = Nat.pow 2 p ∧ x.den = Nat.pow 2 q then some ((p : Rat) - q) else none

/-- The power to an exponent that is an integer; no other exponent has one here. Zero has
no reciprocal. -/
def power? (x y : Rat) : Option Rat :=
  if y.den = 1 then
    if x = 0 ∧ y.num < 0 then none
    else if 0 ≤ y.num then some (x ^ y.num.toNat) else some (1 / x ^ (-y.num).toNat)
  else none

/-- **The operations by which the rules are run** on rationals. -/
instance operations : Operations := ⟨root?, logarithm?, power?⟩

/-- The integer part of a rational, toward zero. -/
def truncate (x : Rat) : Int := x.num.tdiv x.den

/-- The text of a rational: an integer by its digits, a fraction by its two parts. -/
def text (x : Rat) : String :=
  if x.den = 1 then toString x.num else toString x.num ++ "/" ++ toString x.den

/-- The value of a finite numeral. -/
def ofDecimal? : Decimal → Option Rat
  | .finite negative digits exponent =>
    let magnitude := OfScientific.ofScientific digits (exponent < 0) exponent.natAbs
    some (if negative then -magnitude else magnitude)
  | _ => none

end Exact

/-- **Exact reading**: the numbers are rationals. -/
instance [Exact.Operations] : Scalar Rat where
  decideLt := inferInstance
  decideLe := inferInstance
  ofInt n := n
  isFinite _ := true
  abs x := if x < 0 then -x else x
  floor x := x.floor
  ceil x := x.ceil
  rem x y := x - y * Exact.truncate (x / y)
  sqrt? := Exact.Operations.root?
  log2? := Exact.Operations.logarithm?
  pow? := Exact.Operations.power?
  clamp low high x := max low (min high (Exact.truncate x))
  text := Exact.text
  ofDecimal? := Exact.ofDecimal?

end Arithmancy
