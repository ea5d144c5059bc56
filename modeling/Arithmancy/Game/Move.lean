import Arithmancy.Game.Basic

/-!
# Histories of a game

Every operation on a game is a move. This module plays moves one after another, so
that statements about a whole history can be made: which games are reached, which
answers were given, and which events were published on the way.
-/

namespace Arithmancy

/-- **An operation on a game**, with what it is asked. -/
inductive Move (α : Type) where
  /-- Place the value of a die last. -/
  | placeDie (id : DieId)
  /-- Place a card of the hand last. -/
  | placeOperator (slot : Nat)
  /-- Place a token. -/
  | placeToken (token : Token α) (place : Option Nat)
  /-- Remove a token. -/
  | removeToken (i : Nat)
  /-- Move a token. -/
  | moveToken (i j : Nat)
  /-- Empty the expression. -/
  | clearExpression
  /-- Hold a die or release it. -/
  | toggleHold (id : DieId)
  /-- Reroll the dice that are not held. -/
  | reroll
  /-- Draw the target of a boss anew. -/
  | rerollBossTarget
  /-- Look ahead. -/
  | preview
  /-- Submit the expression. -/
  | submit
  /-- Start an encounter. -/
  | startCombat (challenge : Challenge)
  /-- Close an encounter that is over. -/
  | finishCombat
  /-- Give up. -/
  | giveUp
  /-- Give the player a relic. -/
  | grantRelic (relic : Relic)
deriving DecidableEq, Repr

/-- **The answer to a move.** -/
inductive Reply (α : Type) where
  /-- It is done. -/
  | done
  /-- It is done or not, as the flag says. -/
  | flag (b : Bool)
  /-- The token that was removed. -/
  | token (t : Token α)
  /-- What submitting would do. -/
  | preview (p : Preview α)
  /-- What happened in the turn. -/
  | resolution (r : Resolution α)
  /-- The encounter as it starts. -/
  | session (s : Session α)
  /-- How the encounter ended. -/
  | phase (p : Phase)
deriving DecidableEq, Repr

/-- A step whose answer is read as a reply. -/
def Step.reply {α β : Type} (s : Step α β) (f : β → Reply α) : Step α (Reply α) :=
  ⟨s.answer.map f, s.game, s.events⟩

namespace Game

variable {α : Type} [Scalar α]

/-- **Plays one move.** -/
def play (g : Game α) : Move α → Step α (Reply α)
  | .placeDie id => (g.placeDie id).reply fun _ => .done
  | .placeOperator slot => (g.placeOperator slot).reply fun _ => .done
  | .placeToken t place => (g.placeToken t place).reply fun _ => .done
  | .removeToken i => (g.removeToken i).reply .token
  | .moveToken i j => (g.moveToken i j).reply fun _ => .done
  | .clearExpression => g.clearExpression.reply fun _ => .done
  | .toggleHold id => (g.toggleHold id).reply .flag
  | .reroll => g.reroll.reply .flag
  | .rerollBossTarget => g.rerollBossTarget.reply .flag
  | .preview => g.preview.reply .preview
  | .submit => g.submit.reply .resolution
  | .startCombat challenge => (g.startCombat challenge).reply .session
  | .finishCombat => g.finishCombat.reply .phase
  | .giveUp => g.giveUp.reply fun _ => .done
  | .grantRelic r => (g.grantRelic r).reply fun _ => .done

/-- The steps of moves played one after another. -/
def playAll (g : Game α) : List (Move α) → List (Step α (Reply α))
  | [] => []
  | m :: ms => g.play m :: playAll (g.play m).game ms

/-- The game after some moves. -/
def after (g : Game α) (moves : List (Move α)) : Game α :=
  moves.foldl (fun g m => (g.play m).game) g

/-- The events published by some moves, in order. -/
def eventsOf (g : Game α) (moves : List (Move α)) : List (Event α) :=
  (g.playAll moves).flatMap (·.events)

end Game

end Arithmancy
