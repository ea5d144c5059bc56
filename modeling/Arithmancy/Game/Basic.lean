import Arithmancy.Encounter.Edit
import Arithmancy.Encounter.Reroll
import Arithmancy.Encounter.Turn
import Arithmancy.Game.Event
import Arithmancy.Loadout

/-!
# The game

A game is one run with at most one open encounter. Every operation on it gives an
answer, the game after it, and the events it publishes; a refused operation gives a
fault, and leaves the game as it was.
-/

namespace Arithmancy

/-- What a game is set up with. -/
structure Settings (α : Type) where
  /-- The amounts the game is balanced by. -/
  balance : Balance α
  /-- How many unread events a topic is asked to hold. -/
  eventBuffer : Nat
  /-- The seed of the run. -/
  seed : UInt32
  /-- The ascension level. -/
  ascension : Nat
  /-- The set of dice. -/
  loadout : Loadout
deriving DecidableEq, Repr

namespace Settings

/-- How many unread events a topic holds unless asked otherwise. -/
def defaultBuffer : Nat := 100

/-- The settings of a game that is not told otherwise. -/
def standard {α : Type} [Scalar α] : Settings α := ⟨.standard, defaultBuffer, 1, 0, .standard⟩

end Settings

/-- **Why an operation on a game is refused.** -/
inductive GameFault (α : Type) where
  /-- No encounter is open. -/
  | noActiveCombat
  /-- An encounter is open. -/
  | combatInProgress
  /-- The open encounter is not over. -/
  | combatNotFinished
  /-- The run is over. -/
  | runOver
  /-- An edit is refused. -/
  | edit (fault : EditFault)
  /-- A submission is refused. -/
  | submission (fault : SubmissionFault α)
  /-- The expression has no value. -/
  | expression (fault : ExpressionFault α)
  /-- The encounter cannot start. -/
  | start (fault : StartFault)
  /-- The run does not allow it. -/
  | run (fault : RunFault)
deriving DecidableEq, Repr

namespace GameFault

variable {α : Type}

/-- The severity of each cause. -/
def severity : GameFault α → Severity
  | noActiveCombat | combatInProgress | combatNotFinished | runOver => .validation
  | edit fault => fault.severity
  | submission fault => fault.severity
  | expression _ => .recoverable
  | start fault => fault.severity
  | run fault => fault.severity

/-- The code of each cause. -/
def code : GameFault α → String
  | noActiveCombat => "RUNTIME_NO_ACTIVE_COMBAT"
  | combatInProgress => "RUNTIME_COMBAT_IN_PROGRESS"
  | combatNotFinished => "RUNTIME_COMBAT_NOT_FINISHED"
  | runOver => "RUNTIME_RUN_OVER"
  | edit fault => fault.code
  | submission fault => fault.code
  | expression fault => fault.code
  | start fault => fault.code
  | run fault => fault.code

/-- The message of each cause. -/
def message [Scalar α] : GameFault α → String
  | noActiveCombat => "no combat in progress"
  | combatInProgress => "a combat is already in progress"
  | combatNotFinished => "the current combat has not ended"
  | runOver => "the run is over"
  | edit fault => fault.message
  | submission fault => fault.message
  | expression fault => fault.message
  | start fault => fault.message
  | run fault => fault.message

instance [Scalar α] : Fault (GameFault α) := ⟨severity, code, message⟩

end GameFault

/-- **A game**: one run with at most one open encounter. -/
structure Game (α : Type) where
  /-- What the game was set up with. -/
  settings : Settings α
  /-- The monsters the run can meet. -/
  bestiary : Bestiary
  /-- The run. -/
  run : Run α
  /-- The open encounter. -/
  session : Option (Session α)
  /-- Whether the player has given up. -/
  abandoned : Bool

/-- **What an operation on a game comes to.** -/
structure Step (α β : Type) where
  /-- The answer, or why the operation is refused. -/
  answer : Except (GameFault α) β
  /-- The game after the operation. -/
  game : Game α
  /-- The events it publishes, in order. -/
  events : List (Event α)

namespace Game

variable {α : Type}

/-! ## Setting up -/

/-- **A new game** with the given settings and monsters. -/
def new [Scalar α] (settings : Settings α) (bestiary : Bestiary) : Except RunFault (Game α) :=
  match Run.start settings.seed settings.loadout.dice startingHand settings.ascension
      settings.balance with
  | .error fault => .error fault
  | .ok run => .ok ⟨settings, bestiary, run, none, false⟩

/-- Whether the run has ended: the player is dead or has given up. -/
def isRunOver (g : Game α) : Bool := g.abandoned || !g.run.player.isAlive

/-- **The encounter that awaits on the floor**: the boss on the last floor of an act,
an elite on every third floor, and a regular monster elsewhere. -/
def nextChallenge (g : Game α) : Challenge :=
  let floorInAct := g.run.progress.floor % Progress.floorsPerAct
  let random := Challenge.random (floorInAct % 3 == 2)
  if floorInAct = Progress.floorsPerAct - 1 then
    ((g.bestiary.bossForAct? g.run.progress.act).map Challenge.monster).getD random
  else random

/-! ## Shapes of steps -/

/-- An operation that is refused changes nothing and publishes nothing. -/
def refuse {β : Type} (g : Game α) (fault : GameFault α) : Step α β := ⟨.error fault, g, []⟩

/-- An operation on the open encounter, which must exist. -/
def onSession {β : Type} (g : Game α) (f : Session α → Step α β) : Step α β :=
  match g.session with
  | none => g.refuse .noActiveCombat
  | some s => f s

/-- The game with another state of its open encounter. -/
def withSession (g : Game α) (s : Session α) : Game α := { g with session := some s }

/-- An edit of the expression of the open encounter. -/
def onExpression (g : Game α) (f : Session α → Except EditFault (Session α)) : Step α Unit :=
  g.onSession fun s =>
    match f s with
    | .error fault => g.refuse (.edit fault)
    | .ok s => ⟨.ok (), g.withSession s, []⟩

/-! ## Editing -/

/-- Removes a token from the expression. -/
def removeToken (g : Game α) (i : Nat) : Step α (Token α) :=
  g.onSession fun s =>
    match s.removeToken i with
    | .error fault => g.refuse (.edit fault)
    | .ok (t, s) => ⟨.ok t, g.withSession s, []⟩

/-- Moves a token of the expression. -/
def moveToken (g : Game α) (i j : Nat) : Step α Unit := g.onExpression fun s => s.moveToken i j

/-- Empties the expression. -/
def clearExpression (g : Game α) : Step α Unit :=
  g.onExpression fun s => .ok s.clearExpression

/-- Holds a die or releases it; the answer says whether there is such a die and the
encounter goes on. -/
def toggleHold (g : Game α) (id : DieId) : Step α Bool :=
  g.onSession fun s =>
    match s.toggleHold? id with
    | none => ⟨.ok false, g, []⟩
    | some s => ⟨.ok true, g.withSession s, []⟩

variable [Scalar α]

/-- Places a token into the expression. -/
def placeToken (g : Game α) (t : Token α) (place : Option Nat) : Step α Unit :=
  g.onExpression fun s => s.placeToken g.run.player t place

/-- Places the value of a die last. -/
def placeDie (g : Game α) (id : DieId) : Step α Unit :=
  g.onExpression fun s => s.placeDie g.run.player id

/-- Places a card of the hand last. -/
def placeOperator (g : Game α) (slot : Nat) : Step α Unit :=
  g.onExpression fun s => s.placeOperator g.run.player slot

/-! ## Rerolling -/

/-- Rerolls the dice that are not held; the answer says whether a reroll was left. -/
def reroll (g : Game α) : Step α Bool :=
  g.onSession fun s =>
    match s.reroll? g.run.player with
    | none => ⟨.ok false, g, []⟩
    | some (s, p) =>
      ⟨.ok true, { g with session := some s, run := { g.run with player := p } },
        [.combat (.rerolled s.turn s.rerollsLeft)]⟩

/-- Draws the target of a boss anew; the answer says whether that was possible. -/
def rerollBossTarget (g : Game α) : Step α Bool :=
  g.onSession fun s =>
    match s.rerollBossTarget? g.run.progress with
    | none => ⟨.ok false, g, []⟩
    | some s => ⟨.ok true, g.withSession s, [.combat (.bossTargetRerolled s.monster.hp)]⟩

/-! ## Turns -/

/-- Looks ahead to what submitting would do. -/
def preview (g : Game α) : Step α (Preview α) :=
  g.onSession fun s =>
    match s.preview g.run g.settings.balance with
    | .error fault => g.refuse (.expression fault)
    | .ok preview => ⟨.ok preview, g, []⟩

/-- The events of the player's hit points. -/
def hpEvents (p : Player) : List (Event α) := [.player (.hpChanged p.hp p.maxHp)]

/-- The events of a resolved turn, given the player before it. -/
def turnEvents (before : Player) (t : TurnResult α) : List (Event α) :=
  let after := t.run.player
  let r := t.resolution
  [.combat (.resolved r)]
    ++ (r.rescuedBy.map fun relic => Event.player (.relicConsumed relic)).toList
    ++ (if after.hp = before.hp ∧ after.maxHp = before.maxHp then [] else hpEvents after)
    ++ (if after.gold = before.gold then []
        else [.player (.goldChanged after.gold (after.gold - before.gold))])
    ++ (if r.phase.isOver then [.combat (.ended r.phase r.turn)] else [])

/-- **Submits the expression.** A refusal is published, too. -/
def submit (g : Game α) : Step α (Resolution α) :=
  g.onSession fun s =>
    match s.submit g.run g.settings.balance with
    | .error fault => ⟨.error (.submission fault), g, [.combat (.rejected s.turn fault)]⟩
    | .ok t =>
      ⟨.ok t.resolution, { g with session := some t.session, run := t.run },
        turnEvents g.run.player t⟩

/-! ## Encounters -/

/-- How the start of an encounter is announced. -/
def summarize (progress : Progress α) (s : Session α) : EncounterSummary α where
  floor := progress.floor
  act := progress.act
  monsterId := s.monster.id
  monsterName := s.monster.name
  target := s.monster.hp
  attackDie := s.monster.attackDie
  attackDiceCount := s.monster.attackDiceCount
  elite := s.monster.elite
  boss := s.monster.boss
  conditions := s.conditions

/-- **Starts an encounter**, unless the run is over or an encounter is open. -/
def startCombat (g : Game α) (challenge : Challenge) : Step α (Session α) :=
  if g.isRunOver then g.refuse .runOver
  else if g.session.isSome then g.refuse .combatInProgress
  else
    match Session.start g.run g.bestiary challenge with
    | .error fault => g.refuse (.start fault)
    | .ok s => ⟨.ok s, g.withSession s, [.combat (.started (summarize g.run.progress s))]⟩

/-- **Closes an encounter that is over.** A victory leads to the next floor. -/
def finishCombat (g : Game α) : Step α Phase :=
  g.onSession fun s =>
    if !s.isOver then g.refuse .combatNotFinished
    else if s.phase = .victory then
      let progress := g.run.progress.advanceFloor
      ⟨.ok s.phase, { g with session := none, run := { g.run with progress := progress } },
        [.player (.floorAdvanced progress.floor progress.act)]⟩
    else ⟨.ok s.phase, { g with session := none }, []⟩

/-- Gives up the run and any open encounter with it. -/
def giveUp (g : Game α) : Step α Unit :=
  ⟨.ok (), { g with session := none, abandoned := true },
    (g.session.map fun s => Event.combat (.abandoned s.turn)).toList⟩

/-- **Gives the player a relic.** -/
def grantRelic (g : Game α) (r : Relic) : Step α Unit :=
  match g.run.player.addRelic r with
  | .error fault => g.refuse (.run fault)
  | .ok p =>
    ⟨.ok (), { g with run := { g.run with player := p } },
      .player (.relicGained r) :: hpEvents p⟩

end Game

end Arithmancy
