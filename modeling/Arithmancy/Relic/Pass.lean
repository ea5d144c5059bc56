import Arithmancy.Relic.Effect

/-!
# Passes over the relics of a player

At each hook the relics of the player take their turns in the order in which they
were acquired. The order matters: to reduce by two and then to double is not to
double and then to reduce by two. A pass visits only the relics that declare its
hook. The pass over all of them stands beside it: it is the same computation without
the selection.
-/

namespace Arithmancy

/-- What relics have made of a result, their multiplier included. -/
structure Appraisal (α : Type) where
  /-- The value that damage is judged by. -/
  effectiveValue : α
  /-- What gold is multiplied by after combos. -/
  goldMultiplier : α
  /-- Whether an overkill is not answered with damage. -/
  preventOverkillDamage : Bool
  /-- The value that overshot the target before a relic wrapped it below. -/
  wrappedOverkill : Option α
  /-- Changes to the player. -/
  effects : List PlayerEffect
deriving DecidableEq, Repr

/-- A relic that turned a killing blow into survival. -/
structure Rescue where
  /-- The relic. -/
  relic : Relic
  /-- The hit points that are left. -/
  hp : Nat
deriving DecidableEq, Repr

namespace Rescue

/-- What the player is told. -/
def message (r : Rescue) : String := s!"{r.relic.name} saves you from death!"

/-- The player after a rescue: a consumable relic is lost. -/
def apply (r : Rescue) (p : Player) : Player :=
  let saved := { p with hp := r.hp }
  if r.relic.consumable then saved.removeRelic r.relic else saved

end Rescue

namespace Relics

/-- The relics that take part at a hook, in their order. -/
def withHook (h : Hook) (relics : List Relic) : List Relic := relics.filter (Relic.hasHook h)

variable {σ α : Type} [Scalar α] [Source σ α]

/-! ## Passes over all relics -/

/-- Every relic takes part in the deal. -/
def dealAll (relics : List Relic) (deal : Deal) (s : σ) : Deal × σ :=
  relics.foldl (fun (deal, s) r => r.onCombatStart deal s) (deal, s)

/-- One relic takes part in the roll of those dice that were rolled. -/
def rollOne (rolled : List DieId) (r : Relic) (dice : List Die) (s : σ) : List Die × σ :=
  Source.mapDraws (fun d s => if rolled.contains d.id then r.onRoll d s else (d, s)) dice s

/-- Every relic takes part in the roll. -/
def rollAll (relics : List Relic) (dice : List Die) (rolled : List DieId) (s : σ) :
    List Die × σ :=
  relics.foldl (fun (dice, s) r => rollOne rolled r dice s) (dice, s)

/-- Every relic takes part in judging a result. -/
def adjustAll (relics : List Relic) (v : Verdict α) : Adjustment α :=
  relics.foldl (fun a r => r.onEvaluate v a) (.untouched v.raw)

/-- Every relic takes part when the player is hit. -/
def absorbAll (relics : List Relic) (damage : Nat) (memo : RelicMemo) : Nat × RelicMemo :=
  relics.foldl (fun (damage, memo) r => r.onTakeDamage damage memo) (damage, memo)

/-- The first relic that can save the player. -/
def rescueAll? (relics : List Relic) : Option Rescue :=
  relics.findSome? fun r => r.onLethalCheck.map fun hp => ⟨r, hp⟩

/-- Every relic takes part in a reward. -/
def rewardAll (relics : List Relic) (gold : Nat) (reward : Reward) : Nat :=
  relics.foldl (fun gold r => r.onGoldGain gold reward) gold

/-- The most uses of a card that any relic grants; one without relics. -/
def cardUsesAll (relics : List Relic) : Nat := ((relics.map Relic.cardUses).max?).getD 1

/-- Every relic takes part when a combat is over. -/
def concludeAll (relics : List Relic) (victory : Bool) (p : Player) : Player :=
  relics.foldl (fun p r => r.onCombatEnd victory p) p

/-- Every relic takes part when dice are rerolled. -/
def refreshAll (relics : List Relic) (p : Player) : Player :=
  relics.foldl (fun p r => r.onReroll p) p

/-! ## Passes at a hook -/

/-- **Deals a tray**: extra dice and rerolls. -/
def onCombatStart (relics : List Relic) (deal : Deal) (s : σ) : Deal × σ :=
  dealAll (withHook .combatStart relics) deal s

/-- **Adjusts dice that were just rolled.** All others stay as they are. -/
def onRoll (relics : List Relic) (dice : List Die) (rolled : List DieId) (s : σ) :
    List Die × σ :=
  rollAll (withHook .roll relics) dice rolled s

/-- An adjustment with its multiplier worked in. The value is rounded only if there
is a multiplier, so that fractional targets stay in reach. -/
def appraise (a : Adjustment α) : Appraisal α where
  effectiveValue :=
    if a.damageMultiplier == 1 then a.effectiveValue
    else Figures.roundHalfUp (a.effectiveValue * a.damageMultiplier)
  goldMultiplier := a.goldMultiplier
  preventOverkillDamage := a.preventOverkillDamage
  wrappedOverkill := a.wrappedOverkill
  effects := a.effects

/-- **Judges a result**, and counts the evaluation. -/
def onEvaluate (relics : List Relic) (v : Verdict α) (memo : RelicMemo) :
    Appraisal α × RelicMemo :=
  (appraise (adjustAll (withHook .evaluate relics) v),
    { memo with evaluations := memo.evaluations + 1 })

/-- **Softens or hardens a hit.** -/
def onTakeDamage (relics : List Relic) (damage : Nat) (memo : RelicMemo) : Nat × RelicMemo :=
  absorbAll (withHook .takeDamage relics) damage memo

/-- **The relic that saves the player from a killing blow**, if one can. -/
def rescue? (relics : List Relic) : Option Rescue := rescueAll? (withHook .lethalCheck relics)

/-- **Adjusts a reward.** -/
def onGoldGain (relics : List Relic) (gold : Nat) (reward : Reward) : Nat :=
  rewardAll (withHook .goldGain relics) gold reward

/-- **How often each operator card may be placed in one expression.** -/
def cardUses (relics : List Relic) : Nat := cardUsesAll (withHook .passive relics)

end Relics

namespace Player

/-- **A combat is over**: the player's relics take part. -/
def onCombatEnd (p : Player) (victory : Bool) : Player :=
  Relics.concludeAll (Relics.withHook .combatEnd p.relics) victory p

/-- **Dice are rerolled**: the player's relics take part. -/
def onReroll (p : Player) : Player :=
  Relics.refreshAll (Relics.withHook .reroll p.relics) p

end Player

end Arithmancy
