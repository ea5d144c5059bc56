import Arithmancy.Dice
import Arithmancy.Expression.Operator
import Arithmancy.Number.Figures
import Arithmancy.Relic.Basic

/-!
# The player

What the player keeps from one combat to the next: hit points, gold, a pool of dice,
a hand of operator cards, and relics in the order in which they were acquired.
-/

namespace Arithmancy

/-- **The player's lasting resources.** -/
structure Player where
  /-- Hit points. -/
  hp : Nat
  /-- The hit points that healing stops at. -/
  maxHp : Nat
  /-- Gold. -/
  gold : Nat
  /-- Rerolls granted with every fresh tray. -/
  rerollsPerTurn : Nat
  /-- The dice rolled for every turn. -/
  dicePool : List DieSpec
  /-- The operator cards. -/
  hand : List Operator
  /-- The relics, in the order in which they were acquired. -/
  relics : List Relic
deriving DecidableEq, Repr

namespace Player

/-- A player at full health who owns no relic. -/
def fresh (hp gold rerollsPerTurn : Nat) (dicePool : List DieSpec) (hand : List Operator) :
    Player :=
  ⟨hp, hp, gold, rerollsPerTurn, dicePool, hand, []⟩

/-- Whether the player lives. -/
def isAlive (p : Player) : Bool := 0 < p.hp

/-- Restores hit points, up to the most the player can have. -/
def heal (p : Player) (amount : Nat) : Player :=
  { p with hp := min (p.hp + amount) p.maxHp }

/-- Raises hit points and their limit alike, as far as counters reach. -/
def raiseMaxHp (p : Player) (amount : Nat) : Player :=
  { p with
    maxHp := min (p.maxHp + amount) maxCount32
    hp := min (p.hp + amount) maxCount32 }

/-- Takes hit points, none below zero. -/
def takeDamage (p : Player) (amount : Nat) : Player := { p with hp := p.hp - amount }

/-- Adds gold, as far as counters reach. -/
def earn (p : Player) (amount : Nat) : Player :=
  { p with gold := min (p.gold + amount) maxCount32 }

/-- Whether the player owns a relic. -/
def hasRelic (p : Player) (r : Relic) : Bool := p.relics.contains r

/-- Takes a relic from the player. -/
def removeRelic (p : Player) (r : Relic) : Player :=
  { p with relics := p.relics.filter (· != r) }

end Player

end Arithmancy
