import Arithmancy.Number.Figures
import Arithmancy.Text

/-!
# Abilities of bosses

A boss is immune to every result but those with a certain property. The property
is asked of the result rounded to the nearest integer.
-/

namespace Arithmancy

/-- The results a boss can be hurt by. -/
inductive BossAbility where
  | primeOnly | palindromeOnly | perfectSquareOnly
deriving DecidableEq, Repr

namespace BossAbility

instance : Labelled BossAbility where
  all := [primeOnly, palindromeOnly, perfectSquareOnly]
  label
    | primeOnly => "prime_only"
    | palindromeOnly => "palindrome_only"
    | perfectSquareOnly => "perfect_square_only"

/-- What the player is told of it. -/
def description : BossAbility → String
  | primeOnly => "Only prime-numbered results deal damage."
  | palindromeOnly => "Only palindrome results deal damage."
  | perfectSquareOnly => "Only perfect square results deal damage."

/-- The short warning before a result that would be blocked. -/
def warning : BossAbility → String
  | primeOnly => "Not prime!"
  | palindromeOnly => "Not a palindrome!"
  | perfectSquareOnly => "Not a perfect square!"

/-- **Whether a result gets through**, once rounded to the nearest integer. -/
def allows {α : Type} [Scalar α] (ability : BossAbility) (result : α) : Bool :=
  let rounded := Figures.roundHalfUp result
  match ability with
  | primeOnly => Figures.isPrime rounded
  | palindromeOnly => Figures.isPalindrome rounded
  | perfectSquareOnly => Figures.isPerfectSquare rounded

end BossAbility

end Arithmancy
