import Arithmancy.Encounter.Session
import Arithmancy.Encounter.Fault

/-!
# Events

Whatever happens in a game is published as an event, on one of two topics: what
concerns the encounter, and what concerns the player's lasting resources. A subscriber
holds as many unread events of a topic as the topic has room for; when more are
published before it reads, the oldest are lost, and it is told how many.
-/

namespace Arithmancy

/-- Whom the player meets, and under which conditions. -/
structure EncounterSummary (α : Type) where
  /-- The floor. -/
  floor : Nat
  /-- The act. -/
  act : Nat
  /-- The identity of the monster. -/
  monsterId : String
  /-- The name of the monster. -/
  monsterName : String
  /-- The number to hit. -/
  target : α
  /-- The die the monster strikes with. -/
  attackDie : DieType
  /-- How many dice it strikes with. -/
  attackDiceCount : Nat
  /-- Whether it is an elite. -/
  elite : Bool
  /-- What it is immune to, if it is a boss. -/
  boss : Option BossAbility
  /-- The conditions. -/
  conditions : List Condition
deriving DecidableEq, Repr

/-- What happens to an encounter. -/
inductive CombatEvent (α : Type) where
  /-- An encounter starts. -/
  | started (summary : EncounterSummary α)
  /-- A submission is refused, and nothing is spent. -/
  | rejected (turn : Nat) (fault : SubmissionFault α)
  /-- A submission resolves a turn. -/
  | resolved (resolution : Resolution α)
  /-- Dice are rerolled. -/
  | rerolled (turn rerollsLeft : Nat)
  /-- The target of a boss is drawn anew. -/
  | bossTargetRerolled (target : α)
  /-- The encounter is won or lost. -/
  | ended (phase : Phase) (turns : Nat)
  /-- The player walks away from the encounter. -/
  | abandoned (turn : Nat)
deriving DecidableEq, Repr

/-- What happens to the player's lasting resources. -/
inductive PlayerEvent where
  /-- Hit points or their limit changed. -/
  | hpChanged (hp maxHp : Nat)
  /-- Gold changed, by the given amount. -/
  | goldChanged (gold delta : Nat)
  /-- A relic was acquired. -/
  | relicGained (relic : Relic)
  /-- A relic was spent. -/
  | relicConsumed (relic : Relic)
  /-- The player moved on. -/
  | floorAdvanced (floor act : Nat)
deriving DecidableEq, Repr

/-- The topics of events. -/
inductive Topic where
  | combat | player
deriving DecidableEq, Repr

/-- **An event of a game.** -/
inductive Event (α : Type) where
  /-- An event of the encounter. -/
  | combat (event : CombatEvent α)
  /-- An event of the player. -/
  | player (event : PlayerEvent)
deriving DecidableEq, Repr

namespace Event

variable {α : Type}

/-- The topic an event is published on. -/
def topic : Event α → Topic
  | combat _ => .combat
  | player _ => .player

/-- The event as one of the encounter. -/
def combat? : Event α → Option (CombatEvent α)
  | combat e => some e
  | player _ => none

/-- The event as one of the player. -/
def player? : Event α → Option PlayerEvent
  | combat _ => none
  | player e => some e

end Event

/-! ## Subscribers -/

/-- What a subscriber reads: how many events were lost, and those that were not. -/
structure Delivery (β : Type) where
  /-- How many events were lost. -/
  lost : Nat
  /-- The events that are left, the oldest first. -/
  events : List β
deriving DecidableEq, Repr

/-- The least power of two that is not below `n`, looked for among the powers from
`p` on; `fuel` bounds how many are tried. -/
def powerOfTwoFrom (n : Nat) : Nat → Nat → Nat
  | 0, p => p
  | fuel + 1, p => if n ≤ p then p else powerOfTwoFrom n fuel (2 * p)

/-- The room of a topic that is asked to hold `n` events: a power of two, one at
least. -/
def topicRoom (n : Nat) : Nat := powerOfTwoFrom n (n.log2 + 1) 1

/-- **What a subscriber reads** after events were published on a topic with the given
room. -/
def deliver {β : Type} (room : Nat) (published : List β) : Delivery β :=
  ⟨published.length - room, published.drop (published.length - room)⟩

/-- How many subscribers the topics of a game have. -/
structure Audience where
  /-- The subscribers of encounters. -/
  combat : Nat
  /-- The subscribers of the player. -/
  player : Nat
deriving DecidableEq, Repr

namespace Audience

/-- An audience in words. -/
def text (a : Audience) : String :=
  s!"EventBus \x7b combat_subscribers: {a.combat}, player_subscribers: {a.player} \x7d"

end Audience

end Arithmancy
