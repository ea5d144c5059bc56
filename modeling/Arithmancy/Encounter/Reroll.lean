import Arithmancy.Encounter.Session
import Arithmancy.Run

/-!
# Holding and rerolling

Dice are held back or released one by one. A reroll rolls every die that is not held
and takes its token out of the expression. The target of a boss can be drawn anew
once. Each of these is either possible, and gives the state after it, or is not.
-/

namespace Arithmancy

namespace Session

variable {α : Type}

/-- The dice of a tray with the first of an identity held or released. -/
def flipHeld (id : DieId) : List Die → List Die
  | [] => []
  | d :: ds => if d.id = id then { d with held := !d.held } :: ds else d :: flipHeld id ds

/-- **Holds a die, or releases it if it is held.** -/
def toggleHold? (s : Session α) (id : DieId) : Option (Session α) :=
  if s.isOver then none
  else if (s.die? id).isSome then some { s with dice := flipHeld id s.dice }
  else none

variable [Scalar α]

/-- The dice that are not held. -/
def unheld (s : Session α) : List DieId := (s.dice.filter fun d => !d.held).map (·.id)

/-- Rolls every die that is not held. -/
def rollUnheld {σ : Type} [Source σ α] (dice : List Die) (g : σ) : List Die × σ :=
  Source.mapDraws (fun (d : Die) g => if d.held then (d, g) else d.roll g) dice g

/-- The tokens that name none of the given dice. -/
def withoutDice (ids : List DieId) (e : Expression α) : Expression α :=
  e.filter fun t => t.die?.all fun id => !ids.contains id

/-- **Rerolls every die that is not held.** Relics adjust the new rolls, and the
player's relics take part. -/
def reroll? (s : Session α) (p : Player) : Option (Session α × Player) :=
  if s.isOver || s.rerollsLeft = 0 then none
  else
    let rerolled := s.unheld
    let (dice, g) := rollUnheld s.dice s.generator
    let (dice, g) := Relics.onRoll p.relics dice rerolled g
    some ({ s with
      dice := dice
      generator := g
      expression := withoutDice rerolled s.expression
      rerollsLeft := s.rerollsLeft - 1
      log := s.log ++ ["Rerolled unheld dice!"] }, p.onReroll)

/-- **Draws the target of a boss anew**, once in an encounter, and empties the
expression. -/
def rerollBossTarget? (s : Session α) (progress : Progress α) : Option (Session α) :=
  if s.isOver || !s.monster.isBoss || s.bossRerollUsed then none
  else
    let (m, g) := s.monster.rerollTarget progress.floor progress.modifiers s.generator
    let line := s!"Boss target rerolled! New target: {Scalar.text m.hp}"
    some { s with
      monster := m
      generator := g
      bossRerollUsed := true
      expression := []
      log := s.log ++ [line] }

end Session

end Arithmancy
