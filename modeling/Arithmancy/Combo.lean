import Arithmancy.Balance
import Arithmancy.Expression.Token

/-!
# Combos

Some results and some ways of reaching them are combos. Combos scale the gold a
victory earns and never touch damage.
-/

namespace Arithmancy

/-- The combos, in the order in which they are looked for. -/
inductive Combo where
  | exactHit | primeTime | palindrome | powerOfTwo | allDice | noOperators | theAnswer | century
  | tripleThreat | bigNumber
deriving DecidableEq, Repr

/-- What combos are looked for in. -/
structure Attempt (α : Type) where
  /-- The value of the expression. -/
  result : α
  /-- The number to hit. -/
  target : α
  /-- The expression itself. -/
  expression : Expression α
  /-- How many dice lie on the tray, used or not. -/
  totalDice : Nat
deriving DecidableEq, Repr

namespace Combo

instance : Labelled Combo where
  all := [exactHit, primeTime, palindrome, powerOfTwo, allDice, noOperators, theAnswer, century,
    tripleThreat, bigNumber]
  label
    | exactHit => "exact_hit"
    | primeTime => "prime_time"
    | palindrome => "palindrome"
    | powerOfTwo => "power_of_two"
    | allDice => "all_dice"
    | noOperators => "no_operators"
    | theAnswer => "the_answer"
    | century => "century"
    | tripleThreat => "triple_threat"
    | bigNumber => "big_number"

/-- The name called out to the player. -/
def name : Combo → String
  | exactHit => "EXACT HIT"
  | primeTime => "PRIME TIME"
  | palindrome => "PALINDROME"
  | powerOfTwo => "POWER OF 2"
  | allDice => "ALL DICE"
  | noOperators => "NAKED NUMBER"
  | theAnswer => "THE ANSWER"
  | century => "CENTURY"
  | tripleThreat => "TRIPLE THREAT"
  | bigNumber => "GO BIG"

variable {α : Type} [Scalar α]

/-- What the combo multiplies gold by. -/
def multiplier : Combo → α
  | exactHit | primeTime | tripleThreat => 1.5
  | palindrome | powerOfTwo => 1.3
  | allDice | century => 2
  | noOperators => 3
  | theAnswer => 1.42
  | bigNumber => 1.4

/-- Whether some number occurs at least three times. -/
def hasTriple (values : List α) : Bool :=
  values.any fun v => 3 ≤ values.countP fun w => w == v

/-- Whether an attempt is the combo. -/
def occursIn (a : Attempt α) : Combo → Bool
  | exactHit => Scalar.abs (a.result - a.target) < Balance.exactTolerance
  | primeTime => Figures.isPrime a.result
  | palindrome => Figures.isPalindrome a.result
  | powerOfTwo => 2 < Scalar.abs a.result && Figures.isPowerOfTwo (Scalar.abs a.result)
  | allDice => 1 < a.totalDice && a.expression.countNumbers == a.totalDice
  | noOperators => a.expression.countOperators == 0 && a.expression.countNumbers == 1
  | theAnswer => a.result == 42
  | century => a.result == 100
  | tripleThreat => hasTriple a.expression.numbers
  | bigNumber => (200 : α) ≤ Scalar.abs a.result

end Combo

/-- The combos of an attempt and what they multiply gold by together. -/
structure ComboReport (α : Type) where
  /-- The combos found, in their order. -/
  combos : List Combo
  /-- The product of their multipliers, rounded to two places; one without combos. -/
  totalMultiplier : α
deriving DecidableEq, Repr

namespace ComboReport

variable {α : Type}

/-- Whether there is no combo. -/
def isEmpty (r : ComboReport α) : Bool := r.combos.isEmpty

variable [Scalar α]

/-- **Looks for every combo in an attempt.** -/
def ofAttempt (a : Attempt α) : ComboReport α :=
  let combos := (Labelled.all : List Combo).filter (Combo.occursIn a)
  let product := combos.foldl (fun acc c => acc * c.multiplier) (1 : α)
  ⟨combos, Figures.roundTo product 2⟩

/-- One combo and its multiplier, as they are called out. -/
def callOut (c : Combo) : String :=
  let multiplier : α := c.multiplier
  s!"{c.name} (x{Scalar.text multiplier})"

/-- The line that calls the combos out, if there are any. -/
def summary? (r : ComboReport α) : Option String :=
  if r.isEmpty then none
  else
    let names := ", ".intercalate (r.combos.map (callOut (α := α)))
    some s!"COMBOS: {names} → x{Scalar.text r.totalMultiplier} gold!"

end ComboReport

end Arithmancy
