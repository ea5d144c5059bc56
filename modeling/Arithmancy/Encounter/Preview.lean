import Arithmancy.Condition.Violation
import Arithmancy.Encounter.Fault
import Arithmancy.Encounter.Session
import Arithmancy.Expression.Postfix
import Arithmancy.Run

/-!
# Looking ahead

A preview says what submitting the expression would do, without a draw and without
relics: the value, the combos, what a condition or the boss would object to, and how
hard the monster could strike back.
-/

namespace Arithmancy

/-- How a turn would end. -/
structure DamagePreview (α : Type) where
  /-- What the value would do; absent if the boss is immune to it. -/
  outcome : Option (Outcome α)
  /-- The die the monster strikes with. -/
  attackDie : DieType
  /-- How many dice it would roll. -/
  attackDiceCount : Nat
  /-- The least they could show together. -/
  minDamage : Nat
  /-- The most they could show together. -/
  maxDamage : Nat
  /-- How far the value is from the target. -/
  distance : α
  /-- Whether the boss is immune to the value. -/
  bossBlocked : Bool
deriving DecidableEq, Repr

/-- **What submitting the expression would do.** -/
structure Preview (α : Type) where
  /-- The value of the expression. -/
  result : α
  /-- How many numbers it uses. -/
  diceUsed : Nat
  /-- How many operators it uses. -/
  operatorsUsed : Nat
  /-- Its combos. -/
  combos : ComboReport α
  /-- The rule by which it would be refused, if there is one. -/
  violation : Option Violation
  /-- The ability of a boss that is immune to the value. -/
  immunity : Option BossAbility
  /-- How the turn would end; absent if a condition refuses the value and no boss is
  immune to it. -/
  damage : Option (DamagePreview α)
deriving DecidableEq, Repr

namespace BossAbility

/-- The warning in full. -/
def fullWarning (ability : BossAbility) : String := s!"{ability.warning} {ability.description}"

end BossAbility

namespace Session

variable {α : Type} [Scalar α]

/-- Checks every condition on a submission with the given result. -/
def checkConditions (s : Session α) (result : α) : Except Violation Unit := do
  Condition.validate s.conditions result s.expression
  Condition.checkAllDice s.conditions s.expression s.dice.length

/-- The violation of a condition by a submission with the given result. -/
def violation? (s : Session α) (result : α) : Option Violation :=
  match s.checkConditions result with
  | .error v => some v
  | .ok () => none

/-- The ability of the monster, if it is a boss and immune to a result. -/
def immunity? (s : Session α) (result : α) : Option BossAbility :=
  s.monster.boss.filter fun ability => !ability.allows result

/-- How a turn would end that the boss is immune to. -/
def blockedPreview (s : Session α) (result : α) : DamagePreview α where
  outcome := none
  attackDie := s.monster.attackDie
  attackDiceCount := s.monster.attackDiceCount
  minDamage := s.monster.attackRange.1
  maxDamage := s.monster.attackRange.2
  distance := DamageRules.distance result s.monster.hp
  bossBlocked := true

/-- How a turn would end that nothing objects to. -/
def damagePreview (s : Session α) (rules : DamageRules α) (result : α) : DamagePreview α :=
  let outcome := rules.judge s.conditions result s.monster.hp
  let count := if outcome.retaliate then s.monster.attackDiceCount else 0
  { outcome := some outcome
    attackDie := s.monster.attackDie
    attackDiceCount := count
    minDamage := count
    maxDamage := count * s.monster.attackDie.sides
    distance := DamageRules.distance result s.monster.hp
    bossBlocked := false }

/-- **Looks ahead**: what submitting the expression would do. -/
def preview (s : Session α) (run : Run α) (balance : Balance α) :
    Except (ExpressionFault α) (Preview α) := do
  let evaluation ← s.expression.evaluate
  let result := evaluation.result
  let rules := DamageRules.inForce balance run.progress.modifiers
  let violation := s.violation? result
  let immunity := s.immunity? result
  return {
    result := result
    diceUsed := evaluation.diceUsed
    operatorsUsed := evaluation.operatorsUsed
    combos := .ofAttempt (s.attempt result)
    violation := violation
    immunity := immunity
    damage :=
      if immunity.isSome then some (s.blockedPreview result)
      else if violation.isNone then some (s.damagePreview rules result)
      else none }

end Session

end Arithmancy
