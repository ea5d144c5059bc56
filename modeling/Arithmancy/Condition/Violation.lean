import Arithmancy.Condition.Basic
import Arithmancy.Expression.Token
import Arithmancy.Fault

/-!
# Violations

Some conditions are rules about the submission itself: how many dice and operators
it uses, and what number it comes to. A submission that breaks one is refused, and
the turn is not spent.
-/

namespace Arithmancy

/-- **A rule that a submission breaks.** -/
inductive Violation where
  | tooFewDice | tooManyOperators | moreThanOneDie | notEven | notOdd | fractional | notAllDice
deriving DecidableEq, Repr

namespace Violation

/-- The condition whose rule is broken. -/
def condition : Violation → Condition
  | tooFewDice => .useThreeDice
  | tooManyOperators => .maxTwoOps
  | moreThanOneDie => .singleDie
  | notEven => .evenOnly
  | notOdd => .oddOnly
  | fractional => .noFractions
  | notAllDice => .useAllDice

/-- The code of each violation. -/
def code : Violation → String
  | tooFewDice => "CONDITION_TOO_FEW_DICE"
  | tooManyOperators => "CONDITION_TOO_MANY_OPERATORS"
  | moreThanOneDie => "CONDITION_MORE_THAN_ONE_DIE"
  | notEven => "CONDITION_NOT_EVEN"
  | notOdd => "CONDITION_NOT_ODD"
  | fractional => "CONDITION_FRACTIONAL"
  | notAllDice => "CONDITION_NOT_ALL_DICE"

/-- The message of each violation. -/
def message : Violation → String
  | tooFewDice => "Must use at least 3 dice"
  | tooManyOperators => "Max 2 operators allowed"
  | moreThanOneDie => "Can only use 1 die"
  | notEven => "Result must be even"
  | notOdd => "Result must be odd"
  | fractional => "No decimals allowed"
  | notAllDice => "Must use ALL dice!"

instance : Fault Violation where
  severity _ := .recoverable
  code := code
  message := message

end Violation

namespace Condition

variable {α : Type} [Scalar α]

/-- Whether a number leaves no remainder when divided by two. -/
def isEven (x : α) : Bool := Scalar.rem x 2 == 0

/-- Whether a number has no fraction. -/
def isWhole (x : α) : Bool := Scalar.floor x == x

/-- The violation of one condition by a submission with the given result. -/
def violation? (result : α) (e : Expression α) : Condition → Option Violation
  | useThreeDice => if e.countNumbers < 3 then some .tooFewDice else none
  | maxTwoOps => if 2 < e.countOperators then some .tooManyOperators else none
  | singleDie => if 1 < e.countNumbers then some .moreThanOneDie else none
  | evenOnly => if isEven result then none else some .notEven
  | oddOnly => if isWhole result && !isEven result then none else some .notOdd
  | noFractions => if isWhole result then none else some .fractional
  | _ => none

/-- **Checks a submission against conditions** in their order, up to the first
violation. The rule to use every die is checked apart, because it needs the tray. -/
def validate (conditions : List Condition) (result : α) (e : Expression α) :
    Except Violation Unit :=
  match conditions.findSome? (violation? result e) with
  | some v => .error v
  | none => .ok ()

/-- Checks the rule to use every die against the number of dice on the tray. -/
def checkAllDice (conditions : List Condition) (e : Expression α) (totalDice : Nat) :
    Except Violation Unit :=
  if conditions.contains useAllDice && e.countNumbers < totalDice then .error .notAllDice
  else .ok ()

end Condition

end Arithmancy
