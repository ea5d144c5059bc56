import Arithmancy.Expression.Operator

/-!
# Conditions

A condition changes the rules of one encounter. Some refuse a submission outright,
some block its damage, some change what a hit or a miss costs, and one changes the
target. Conditions fall into categories, and an encounter carries at most one of
each category, the rules about numbers excepted.
-/

namespace Arithmancy

/-- The conditions, in catalog order. -/
inductive Condition where
  | gentle | harsh | glassCannon
  | tightWindow | noOverkill | mustOverkill
  | useThreeDice | useAllDice | maxTwoOps | singleDie
  | evenOnly | oddOnly | noFractions
  | decimalTarget
deriving DecidableEq, Repr

/-- What a condition is about. -/
inductive Category where
  | damage | targeting | constraint | number | special
deriving DecidableEq, Repr

namespace Category

instance : Labelled Category where
  all := [damage, targeting, constraint, number, special]
  label
    | damage => "damage"
    | targeting => "targeting"
    | constraint => "constraint"
    | number => "number"
    | special => "special"

end Category

namespace Condition

instance : Labelled Condition where
  all := [gentle, harsh, glassCannon, tightWindow, noOverkill, mustOverkill, useThreeDice,
    useAllDice, maxTwoOps, singleDie, evenOnly, oddOnly, noFractions, decimalTarget]
  label
    | gentle => "gentle"
    | harsh => "harsh"
    | glassCannon => "glass_cannon"
    | tightWindow => "tight_window"
    | noOverkill => "no_overkill"
    | mustOverkill => "must_overkill"
    | useThreeDice => "use_3_dice"
    | useAllDice => "use_all_dice"
    | maxTwoOps => "max_2_ops"
    | singleDie => "single_die"
    | evenOnly => "even_only"
    | oddOnly => "odd_only"
    | noFractions => "no_fractions"
    | decimalTarget => "decimal_target"

/-- The name shown to the player. -/
def name : Condition → String
  | gentle => "Gentle"
  | harsh => "Harsh"
  | glassCannon => "Glass Cannon"
  | tightWindow => "Tight Window"
  | noOverkill => "No Overkill"
  | mustOverkill => "Brute Force"
  | useThreeDice => "Three's Company"
  | useAllDice => "All In"
  | maxTwoOps => "Keep It Simple"
  | singleDie => "One Shot"
  | evenOnly => "Even Steven"
  | oddOnly => "Odd One Out"
  | noFractions => "Whole Numbers Only"
  | decimalTarget => "Decimal Dance"

/-- What the player is told of it. -/
def description : Condition → String
  | gentle => "No overkill penalty"
  | harsh => "Take the FULL difference as damage if you miss"
  | glassCannon => "Deal double damage, but take double overkill"
  | tightWindow => "Must be within 3 of target or deal no damage"
  | noOverkill => "Going over the target deals zero damage"
  | mustOverkill => "Must exceed the target. Exact hits and underkills deal no damage"
  | useThreeDice => "Must use at least 3 dice"
  | useAllDice => "Must use ALL your dice"
  | maxTwoOps => "Can only use 2 operators max"
  | singleDie => "Can only use 1 die. Choose wisely."
  | evenOnly => "Result must be even to deal damage"
  | oddOnly => "Result must be odd to deal damage"
  | noFractions => "Decimal results deal no damage"
  | decimalTarget => "Target includes a decimal"

/-- What it is about. -/
def category : Condition → Category
  | gentle | harsh | glassCannon => .damage
  | tightWindow | noOverkill | mustOverkill => .targeting
  | useThreeDice | useAllDice | maxTwoOps | singleDie => .constraint
  | evenOnly | oddOnly | noFractions => .number
  | decimalTarget => .special

/-- Whether two conditions may never share an encounter. -/
def conflictsWith : Condition → Condition → Bool
  | noOverkill, mustOverkill | mustOverkill, noOverkill => true
  | gentle, harsh | harsh, gentle => true
  | singleDie, useThreeDice | singleDie, useAllDice => true
  | useThreeDice, singleDie | useAllDice, singleDie => true
  | evenOnly, oddOnly | oddOnly, evenOnly => true
  | _, _ => false

theorem conflictsWith_comm (a b : Condition) : a.conflictsWith b = b.conflictsWith a := by
  cases a <;> cases b <;> rfl

end Condition

end Arithmancy
