import Arithmancy.Number.Scalar

/-!
# Balance

The amounts the game is balanced by: those a file can override, collected in
`Balance`, and those that are fixed.
-/

namespace Arithmancy

/-- The amounts that can be tuned without changing the rules. -/
structure Balance (α : Type) where
  /-- Hit points of a fresh run, before ascension. -/
  startingHp : Nat
  /-- Gold of a fresh run, before ascension. -/
  startingGold : Nat
  /-- Rerolls granted with every fresh tray. -/
  rerollsPerTurn : Nat
  /-- How far below the target a result may land and still kill. -/
  nearMissThreshold : α
  /-- How far from the target a result may land under the tight window. -/
  tightWindow : α
  /-- Gold for a regular monster, before its floor is counted. -/
  baseGold : Nat
  /-- Gold for an elite monster, before its floor is counted. -/
  eliteGold : Nat
deriving DecidableEq, Repr

namespace Balance

variable {α : Type} [Scalar α]

/-- The amounts the game is played with unless told otherwise. -/
def standard : Balance α where
  startingHp := 80
  startingGold := 50
  rerollsPerTurn := 1
  nearMissThreshold := 3
  tightWindow := 3
  baseGold := 15
  eliteGold := 30

/-- Results closer to the target than this are exact hits. -/
def exactTolerance : α := 0.001

/-- The most conditions an encounter can carry. -/
def maxConditions : Nat := 3

/-- How much the hit points of monsters grow with each floor. -/
def hpGrowthPerFloor : α := 1.15

/-- The least hit points of a monster. -/
def minMonsterHp : Nat := 5

end Balance

end Arithmancy
