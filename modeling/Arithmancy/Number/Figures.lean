import Arithmancy.Number.Scalar

/-!
# Figures

The arithmetic that operators, combos, bosses and relics share: rounding,
factorials and figurate numbers, and the properties a result can have. A function
that is not defined for some argument gives `none` there.

Bosses, combos and targets ask whether a number is prime, and which prime is nearest.
Both questions are answered on natural numbers, by trial division.
-/

namespace Arithmancy

/-! ## Prime numbers -/

namespace Prime

/-- Whether no odd number from `i` on divides `n`, as far as squares reach; `fuel`
bounds the number of candidates. -/
def noOddDivisorFrom (n : Nat) : Nat → Nat → Bool
  | 0, _ => true
  | fuel + 1, i =>
    if n < i * i then true
    else if n % i = 0 then false
    else noOddDivisorFrom n fuel (i + 2)

/-- **Trial division**: two is prime, no other even number is, and an odd number
from three on is prime if no odd number up to its root divides it. -/
def test (n : Nat) : Bool :=
  if n < 2 then false
  else if n = 2 then true
  else if n % 2 = 0 then false
  else noOddDivisorFrom n n 3

/-- Looks for a prime at growing distance, below before above; the upper candidate
never passes `limit`. -/
def searchFrom (limit n : Nat) : Nat → Nat → Nat
  | 0, _ => n
  | fuel + 1, distance =>
    if distance ≤ n && 2 ≤ n - distance && test (n - distance) then n - distance
    else if test (min (n + distance) limit) then min (n + distance) limit
    else searchFrom limit n fuel (distance + 1)

/-- **The prime nearest to `n`** among the numbers up to `limit`, the lower of two
equally near. -/
def nearest (limit n : Nat) : Nat :=
  if test n then n else searchFrom limit n (n + 2) 1

end Prime

/-! ## Figures of a scalar -/

namespace Figures

open Scalar

variable {α : Type} [Scalar α]

/-- The largest number with a factorial here. -/
def factorialCap : Nat := 12

/-- The largest number with a triangle or a rectangle here. -/
def figurateCap : Nat := 100

/-- **Rounds to the nearest integer**, halves upward. -/
def roundHalfUp (x : α) : α := floor (x + 0.5)

/-- Rounds to a number of decimal places, halves upward. -/
def roundTo (x : α) (places : Int) : α :=
  let scale := powInt (10 : α) places
  roundHalfUp (x * scale) / scale

/-- Whether a number is one of the integers from zero up to a cap. -/
def isCountUpTo (cap : Nat) (x : α) : Bool :=
  !(x < 0) && isInteger x && !(ofNat cap < x)

/-- The factorial of an integer from zero to twelve. -/
def factorial? (x : α) : Option α :=
  if isCountUpTo factorialCap x then
    some ((List.range' 2 (toNat factorialCap x - 1)).foldl (fun acc i => acc * ofNat i) 1)
  else none

/-- The triangular number of an integer from zero to a hundred. -/
def triangular? (x : α) : Option α :=
  if isCountUpTo figurateCap x then some (x * (x + 1) / 2) else none

/-- The rectangular number of an integer from zero to a hundred. -/
def rectangular? (x : α) : Option α :=
  if isCountUpTo figurateCap x then some (x * (x + 1)) else none

/-- Whether a number is prime. -/
def isPrime (x : α) : Bool :=
  !(x < 2) && isInteger x && Prime.test (toNat maxCount64 x)

/-- Whether a text reads the same from both ends. -/
def readsSameBackward (cs : List Char) : Bool := cs == cs.reverse

/-- Whether the integer part of a number, without its sign, is a palindrome of at
least two digits. -/
def isPalindrome (x : α) : Bool :=
  let digits := (text (abs (floor x))).toList
  isFinite x && 1 < digits.length && readsSameBackward digits

/-- Whether the root of a number is an integer. -/
def isPerfectSquare (x : α) : Bool :=
  !(x < 0) && isFinite x && (sqrt? x).any fun r => floor r == r

/-- Whether a number is Fibonacci's: `n` is exactly if `5 n² + 4` or `5 n² - 4` is a
square. -/
def isFibonacci (x : α) : Bool :=
  !(x < 0) && isInteger x
    && (isPerfectSquare (5 * x * x + 4) || isPerfectSquare (5 * x * x - 4))

/-- Whether a number is a power of two that a 64-bit counter can hold. -/
def isPowerOfTwo (x : α) : Bool :=
  let n := toNat maxCount64 x
  0 < x && isInteger x && !(ofNat maxCount64 < x) && n != 0 && Nat.pow 2 n.log2 == n

/-- The prime nearest to a 32-bit count, the lower of two equally near. -/
def nearestPrime (n : Nat) : Nat := Prime.nearest maxCount32 n

end Figures

end Arithmancy
