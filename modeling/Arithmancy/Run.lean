import Arithmancy.Ascension
import Arithmancy.Fault
import Arithmancy.Relic.Pass

/-!
# Runs

A run is the player, and how far and with what success the player has come. It
outlives every encounter. Ten floors make an act.
-/

namespace Arithmancy

/-- What is counted over a run. -/
structure Tally (α : Type) where
  /-- Turns resolved. -/
  turnsPlayed : Nat
  /-- Monsters killed. -/
  monstersKilled : Nat
  /-- Exact hits. -/
  exactHits : Nat
  /-- Damage dealt. -/
  totalDamageDealt : Nat
  /-- Damage taken. -/
  totalDamageTaken : Nat
  /-- Combos triggered. -/
  totalCombosTriggered : Nat
  /-- The greatest multiplier of any turn with combos. -/
  bestComboMultiplier : α
  /-- Gold earned. -/
  goldEarned : Nat
deriving DecidableEq, Repr

/-- Nothing is counted yet. -/
def Tally.empty {α : Type} [Scalar α] : Tally α := ⟨0, 0, 0, 0, 0, 0, 1, 0⟩

/-- Where a run stands and how hard it is. -/
structure Progress (α : Type) where
  /-- The seed that the generator of every encounter derives from. -/
  seed : UInt32
  /-- The floor, from zero on. -/
  floor : Nat
  /-- The act, from one on. -/
  act : Nat
  /-- The amounts in force. -/
  modifiers : Modifiers α
  /-- What has been counted. -/
  tally : Tally α
deriving DecidableEq, Repr

namespace Progress

variable {α : Type}

/-- How many floors make an act. -/
def floorsPerAct : Nat := 10

/-- The start of a run. -/
def start [Scalar α] (seed : UInt32) (modifiers : Modifiers α) : Progress α :=
  ⟨seed, 0, 1, modifiers, .empty⟩

/-- Moves to the next floor. -/
def advanceFloor (p : Progress α) : Progress α :=
  { p with floor := p.floor + 1, act := (p.floor + 1) / floorsPerAct + 1 }

end Progress

/-- Why a run cannot start or a relic cannot be added. -/
inductive RunFault where
  /-- The relic is owned already. -/
  | duplicateRelic (relic : Relic)
  /-- There are no dice to play with. -/
  | emptyDicePool
deriving DecidableEq, Repr

namespace RunFault

/-- The severity of each cause. -/
def severity : RunFault → Severity
  | duplicateRelic _ => .validation
  | emptyDicePool => .internal

/-- The code of each cause. -/
def code : RunFault → String
  | duplicateRelic _ => "STATE_DUPLICATE_RELIC"
  | emptyDicePool => "STATE_EMPTY_DICE_POOL"

/-- The message of each cause. -/
def message : RunFault → String
  | duplicateRelic r => s!"relic {label r} is already owned"
  | emptyDicePool => "dice pool is empty"

instance : Fault RunFault := ⟨severity, code, message⟩

end RunFault

/-- **Adds a relic**, which takes part in its own pickup if it declares that hook. -/
def Player.addRelic (p : Player) (r : Relic) : Except RunFault Player :=
  if p.hasRelic r then .error (.duplicateRelic r)
  else
    let owner := { p with relics := p.relics ++ [r] }
    .ok (if r.hasHook .pickup then r.onPickup owner else owner)

/-- **A run**: everything an encounter reads and writes outside itself. -/
structure Run (α : Type) where
  /-- The player. -/
  player : Player
  /-- How far the player has come. -/
  progress : Progress α
deriving DecidableEq, Repr

namespace Run

variable {α : Type} [Scalar α]

/-- The pool left by a penalty of some dice: the last die goes, as long as at least
three remain. -/
def penalized (pool : List DieSpec) : Nat → List DieSpec
  | 0 => pool
  | n + 1 =>
    penalized (if Modifiers.minPoolForPenalty ≤ pool.length then pool.dropLast else pool) n

/-- **Starts a run**, with the ascension worked into the player. -/
def start (seed : UInt32) (pool : List DieSpec) (hand : List Operator) (ascension : Nat)
    (balance : Balance α) : Except RunFault (Run α) :=
  if pool.isEmpty then .error .emptyDicePool
  else
    let modifiers := Modifiers.forLevel ascension balance
    .ok {
      player := .fresh modifiers.startingHp modifiers.startingGold balance.rerollsPerTurn
        (penalized pool modifiers.startingDicePenalty) hand
      progress := .start seed modifiers }

end Run

end Arithmancy
