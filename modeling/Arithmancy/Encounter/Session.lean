import Arithmancy.Chance.Generator
import Arithmancy.Combo
import Arithmancy.Condition.Outcome
import Arithmancy.Monster.Basic
import Arithmancy.Relic.Effect

/-!
# Encounters

A session is one encounter: the monster, the dice on the tray, the expression under
construction and the generator of its draws. It is over once the monster or the
player is dead. This module holds what a session is and what can be read off it.
-/

namespace Arithmancy

/-- Where an encounter stands. -/
inductive Phase where
  /-- The player builds an expression. -/
  | building
  /-- The monster is dead. -/
  | victory
  /-- The player is dead. -/
  | defeat
deriving DecidableEq, Repr

namespace Phase

instance : Labelled Phase where
  all := [building, victory, defeat]
  label
    | building => "building"
    | victory => "victory"
    | defeat => "defeat"

/-- Whether the encounter is over. -/
def isOver : Phase → Bool
  | building => false
  | victory | defeat => true

end Phase

/-- **Everything that happened in one turn.** -/
structure Resolution (α : Type) where
  /-- The number of the turn. -/
  turn : Nat
  /-- The value of the expression. -/
  rawValue : α
  /-- The value after relics, by which damage was judged. -/
  value : α
  /-- The number to hit. -/
  target : α
  /-- What the value did to the monster. -/
  outcome : Outcome α
  /-- The combos of the expression. -/
  combos : ComboReport α
  /-- The die the monster strikes with. -/
  attackDie : DieType
  /-- What the monster rolled. -/
  attackRolls : List Nat
  /-- The damage the player took, after relics. -/
  damageTaken : Nat
  /-- The gold the player earned. -/
  goldEarned : Nat
  /-- The hit points the monster was left with. -/
  monsterHp : α
  /-- The hit points the player was left with. -/
  playerHp : Nat
  /-- Whether the monster died. -/
  monsterDead : Bool
  /-- Whether the player died. -/
  playerDead : Bool
  /-- The relic that saved the player, if one did. -/
  rescuedBy : Option Relic
  /-- Where the encounter stood after the turn. -/
  phase : Phase
deriving DecidableEq, Repr

/-- **One encounter.** -/
structure Session (α : Type) where
  /-- The monster; its hit points are the number to hit. -/
  monster : Monster α
  /-- The dice on the tray. -/
  dice : List Die
  /-- The conditions of the encounter. -/
  conditions : List Condition
  /-- The number of the turn, from one on. -/
  turn : Nat
  /-- The rerolls left in this turn. -/
  rerollsLeft : Nat
  /-- Where the encounter stands. -/
  phase : Phase
  /-- The expression under construction. -/
  expression : Expression α
  /-- What has been told so far, line by line. -/
  log : List String
  /-- What happened in the last turn that was resolved. -/
  lastResolution : Option (Resolution α)
  /-- Whether the target of the boss has been rerolled. -/
  bossRerollUsed : Bool
  /-- The generator of all draws to come. -/
  generator : Generator α
  /-- What relics remember. -/
  memo : RelicMemo
deriving DecidableEq, Repr

namespace Session

variable {α : Type}

/-- Whether the encounter is over. -/
def isOver (s : Session α) : Bool := s.phase.isOver

/-- The first die on the tray with an identity. -/
def die? (s : Session α) (id : DieId) : Option Die := s.dice.find? fun d => d.id == id

/-- Whether the expression uses a die. -/
def isPlaced (s : Session α) (id : DieId) : Bool := s.expression.any fun t => t.die? == some id

/-- How often the expression uses the card in a slot of the hand. -/
def cardUses (s : Session α) (slot : Nat) : Nat :=
  s.expression.countP fun t => t.slot? == some slot

/-- The expression as an attempt at a combo, for a given result. -/
def attempt (s : Session α) (result : α) : Attempt α :=
  ⟨result, s.monster.hp, s.expression, s.dice.length⟩

end Session

end Arithmancy
