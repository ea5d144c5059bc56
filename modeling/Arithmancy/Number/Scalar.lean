import Arithmancy.Number.Shortest

/-!
# The numbers of the game

Expressions, targets, thresholds and multipliers are numbers of one kind. The
rules ask little of that kind: the four operations, an order, the integer below,
the text of a number. `Scalar` collects what they ask, and every rule of the game
is written over an arbitrary scalar.

There are two readings. The game is played with 64-bit floating-point numbers,
whose operations round; and it can be read with exact rationals, whose operations
do not, so that a law about amounts can be told apart from the noise of rounding.

Counters, draws and written numbers are integers, but not of any size: a counter stops
at the greatest value of its width, and a draw is held between the bounds of a signed
integer of 64 bits.
-/

namespace Arithmancy

/-! ## Limits of integers -/

/-- The greatest value of a 32-bit counter. -/
def maxCount32 : Nat := 0xFFFFFFFF

/-- The greatest value of a 64-bit counter. -/
def maxCount64 : Nat := 0xFFFFFFFFFFFFFFFF

/-- The least value of a signed 64-bit integer. -/
def minInt64 : Int := -0x8000000000000000

/-- The greatest value of a signed 64-bit integer. -/
def maxInt64 : Int := 0x7FFFFFFFFFFFFFFF

/-! ## Scalars -/

/-- **A kind of number the game can be played with.** -/
class Scalar (α : Type) extends
    Add α, Sub α, Mul α, Div α, Neg α, LT α, LE α, BEq α, OfScientific α where
  /-- The order is decidable. -/
  decideLt : DecidableLT α
  /-- So is its reflexive form. -/
  decideLe : DecidableLE α
  /-- The number nearest to an integer. -/
  ofInt : Int → α
  /-- Whether this is a number at all, and not an infinity or an undefined value. -/
  isFinite : α → Bool
  /-- The number without its sign. -/
  abs : α → α
  /-- The greatest integer not above a number. -/
  floor : α → α
  /-- The least integer not below a number. -/
  ceil : α → α
  /-- The remainder of a division whose quotient is rounded toward zero. -/
  rem : α → α → α
  /-- The square root of a number that is not negative, where the kind has one. -/
  sqrt? : α → Option α
  /-- The binary logarithm of a positive number, where the kind has one. -/
  log2? : α → Option α
  /-- The power of a number to any exponent, where the kind has one. -/
  pow? : α → α → Option α
  /-- The integer part of a number, held between two bounds. -/
  clamp : Int → Int → α → Int
  /-- The text of a number. -/
  text : α → String
  /-- The number nearest to a decimal numeral, if there is one. -/
  ofDecimal? : Decimal → Option α

namespace Scalar

variable {α : Type} [Scalar α]

instance : DecidableLT α := decideLt

instance : DecidableLE α := decideLe

instance (priority := low) instOfNatScalar (n : Nat) : OfNat α n := ⟨ofInt n⟩

/-- The number nearest to a natural number. -/
def ofNat (n : Nat) : α := ofInt n

/-- The integer part of a number, held between zero and `high`. -/
def toNat (high : Nat) (x : α) : Nat := (clamp 0 high x).toNat

/-- The number a text denotes, if it is a numeral. -/
def read? (s : String) : Option α := Decimal.read? s >>= ofDecimal?

/-- Whether a number is an integer. -/
def isInteger (x : α) : Bool := isFinite x && floor x == x

/-- The number itself where it is positive, and zero elsewhere. -/
def positivePart (x : α) : α := if 0 < x then x else 0

/-- The lesser of two numbers, the first if they do not compare. -/
def least (x y : α) : α := if y < x then y else x

/-- The loop behind `powNat`: multiplies `acc` by `base ^ n`, taking one binary
digit of `n` in each step. -/
def powLoop : Nat → α → α → Nat → α
  | 0, acc, _, _ => acc
  | fuel + 1, acc, base, n =>
    let acc := if n % 2 = 1 then acc * base else acc
    if n / 2 = 0 then acc else powLoop fuel acc (base * base) (n / 2)

/-- A power with a natural exponent, by repeated squaring from the least binary
digit of the exponent upward. -/
def powNat (x : α) (n : Nat) : α := powLoop (n.log2 + 1) 1 x n

/-- A power with an integer exponent: for a negative one, the reciprocal. -/
def powInt (x : α) (n : Int) : α :=
  if n < 0 then 1 / powNat x n.natAbs else powNat x n.natAbs

end Scalar

/-- **Play**: the numbers are 64-bit floating-point numbers. -/
instance : Scalar Float where
  decideLt := inferInstance
  decideLe := inferInstance
  ofInt := Float.ofInt
  isFinite := Float.isFinite
  abs := Float.abs
  floor := Binary64.floor
  ceil := Binary64.ceil
  rem := Binary64.rem
  sqrt? x := some (Float.sqrt x)
  log2? x := some (Float.log2 x)
  pow? x y := some (Float.pow x y)
  clamp := Binary64.clamp
  text := Binary64.text
  ofDecimal? d := some (Binary64.ofDecimal d)

end Arithmancy
