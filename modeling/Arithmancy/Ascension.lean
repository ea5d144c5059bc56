import Arithmancy.Balance

/-!
# Ascension

A run is played at an ascension level from zero to ten. Each level adds one
hardship to those of the levels below it. Rules never look at the level: they read
the modifiers it resolves to.
-/

namespace Arithmancy

/-- The highest ascension level. -/
def maxAscension : Nat := 10

/-- What is shown of one ascension level. -/
structure AscensionLevel where
  /-- The level. -/
  level : Nat
  /-- Its name. -/
  name : String
  /-- What it adds. -/
  description : String
deriving DecidableEq, Repr

namespace AscensionLevel

/-- Every level, the lowest first. -/
def all : List AscensionLevel := [
  ⟨1, "Thinner Margins", "Near-miss threshold reduced from 3 to 2."⟩,
  ⟨2, "Poverty", "Start with 25 gold instead of 50."⟩,
  ⟨3, "Fragile", "Start with 60 HP instead of 80."⟩,
  ⟨4, "Stingy Monsters", "Earn 30% less gold from combat."⟩,
  ⟨5, "Tougher Hides", "All monsters have +15% HP."⟩,
  ⟨6, "No Free Lunch", "Rest sites only heal 20% HP (down from 30%)."⟩,
  ⟨7, "Extra Conditions", "Monsters can have up to 3 conditions."⟩,
  ⟨8, "Price Gouging", "All shop prices increased by 40%."⟩,
  ⟨9, "Relentless", "Monster attack dice upgraded by one tier."⟩,
  ⟨10, "The Final Challenge", "Start with 1 fewer die."⟩]

/-- The levels in force at a level, the lowest first. -/
def active (level : Nat) : List AscensionLevel := all.filter fun a => a.level ≤ level

end AscensionLevel

/-- **The amounts in force at one ascension level.** -/
structure Modifiers (α : Type) where
  /-- The level itself, ten at most. -/
  level : Nat
  /-- How far below the target a result may land and still kill. -/
  nearMissThreshold : α
  /-- Gold at the start of the run. -/
  startingGold : Nat
  /-- Hit points at the start of the run. -/
  startingHp : Nat
  /-- Scales combat gold before combos. -/
  goldMultiplier : α
  /-- Scales the hit points of monsters after their floor is counted. -/
  monsterHpMultiplier : α
  /-- The part of all hit points that a rest restores. -/
  restHealFraction : α
  /-- The most conditions an encounter may carry. -/
  maxConditions : Nat
  /-- Scales prices in shops. -/
  shopPriceMultiplier : α
  /-- How many steps further monsters' attack dice climb. -/
  attackDieBonus : Nat
  /-- How many dice the starting pool loses. -/
  startingDicePenalty : Nat
deriving DecidableEq, Repr

namespace Modifiers

variable {α : Type} [Scalar α]

/-- The smallest pool that still loses a die to the final challenge. -/
def minPoolForPenalty : Nat := 4

/-- The modifiers of a level, given the balance they start from. -/
def forLevel (level : Nat) (balance : Balance α) : Modifiers α where
  level := min level maxAscension
  nearMissThreshold :=
    if 1 ≤ level then balance.nearMissThreshold - 1 else balance.nearMissThreshold
  startingGold := if 2 ≤ level then balance.startingGold / 2 else balance.startingGold
  startingHp := if 3 ≤ level then balance.startingHp * 3 / 4 else balance.startingHp
  goldMultiplier := if 4 ≤ level then 0.7 else 1
  monsterHpMultiplier := if 5 ≤ level then 1.15 else 1
  restHealFraction := if 6 ≤ level then 0.2 else 0.3
  maxConditions := if 7 ≤ level then 3 else 2
  shopPriceMultiplier := if 8 ≤ level then 1.4 else 1
  attackDieBonus := if 9 ≤ level then 1 else 0
  startingDicePenalty := if 10 ≤ level then 1 else 0

end Modifiers

end Arithmancy
