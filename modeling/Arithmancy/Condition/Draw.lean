import Arithmancy.Ascension
import Arithmancy.Chance.Source
import Arithmancy.Condition.Basic

/-!
# Drawing the conditions of an encounter

Each floor has a pool of conditions and a chance that an encounter carries any. If
it does, the pool is shuffled and walked from the front, and every condition is
kept that still fits those already kept, the monster and the hand, until the limit
of the ascension is reached.
-/

namespace Arithmancy

namespace Condition

/-- The conditions eligible on a floor. -/
def floorPool (floor : Nat) : List Condition :=
  if floor ≤ 1 then [gentle, evenOnly, oddOnly]
  else if floor ≤ 4 then
    [evenOnly, oddOnly, useThreeDice, noOverkill, mustOverkill, maxTwoOps, noFractions]
  else if floor ≤ 7 then
    [evenOnly, oddOnly, useThreeDice, noOverkill, mustOverkill, maxTwoOps, noFractions, harsh,
      tightWindow, glassCannon, singleDie, decimalTarget]
  else if floor ≤ 99 then
    [useThreeDice, noOverkill, mustOverkill, useAllDice, maxTwoOps, harsh, tightWindow,
      glassCannon, singleDie, decimalTarget, evenOnly, oddOnly, noFractions]
  else [gentle, evenOnly, oddOnly]

variable {α : Type} [Scalar α]

/-- The chance that an encounter on a floor carries any condition. -/
def chance (floor : Nat) : α :=
  Scalar.least (0.3 + Scalar.ofNat floor * 0.08) 0.85

/-- The hit points above which a single die is never asked for. -/
def singleDieMaxHp : α := 30

/-- Whether an encounter with this monster and hand can carry a condition at all. -/
def feasible (hp : α) (hand : List Operator) : Condition → Bool
  | singleDie => !(singleDieMaxHp < hp)
  | decimalTarget => hand.any Operator.producesFractions
  | _ => true

/-- Whether a condition fits beside those already kept: its category is free, or is
the one that may repeat, and it conflicts with none. -/
def fitsBeside (kept : List Condition) (c : Condition) : Bool :=
  (c.category == .number || !kept.any fun k => k.category == c.category)
    && !kept.any fun k => c.conflictsWith k

/-- Walks candidates in order and keeps those that are feasible and fit beside the
ones kept before, up to a limit. -/
def keepFitting (limit : Nat) (hp : α) (hand : List Operator) :
    List Condition → List Condition → List Condition
  | kept, [] => kept
  | kept, c :: cs =>
    if limit ≤ kept.length then kept
    else if fitsBeside kept c && feasible hp hand c then
      keepFitting limit hp hand (kept ++ [c]) cs
    else keepFitting limit hp hand kept cs

/-- **Draws the conditions of an encounter.** The lowest floor has none, and nothing
is drawn for it. -/
def pick {σ : Type} [Source σ α] (floor : Nat) (hp : α) (hand : List Operator)
    (modifiers : Modifiers α) (s : σ) : List Condition × σ :=
  if floor = 0 then ([], s)
  else
    let (x, s) := Source.draw s
    if chance floor < x then ([], s)
    else
      let (candidates, s) := Source.shuffle (floorPool floor) s
      let limit := min modifiers.maxConditions Balance.maxConditions
      (keepFitting limit hp hand [] candidates, s)

end Condition

end Arithmancy
