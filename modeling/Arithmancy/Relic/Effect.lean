import Arithmancy.Balance
import Arithmancy.Chance.Source
import Arithmancy.Player

/-!
# What relics do

One function per hook says what each relic does there; a relic that takes no part
changes nothing. Nothing here asks which hooks a relic declares.
-/

namespace Arithmancy

/-- What relics remember during one combat. -/
structure RelicMemo where
  /-- How many expressions were evaluated in this combat. -/
  evaluations : Nat
  /-- Whether the shield has taken its hit. -/
  shieldUsed : Bool
deriving DecidableEq, Repr

/-- What relics remember when a combat starts. -/
def RelicMemo.fresh : RelicMemo := ⟨0, false⟩

/-- A change to the player that a relic asks for while a result is judged. -/
inductive PlayerEffect where
  /-- Restore hit points. -/
  | heal (amount : Nat)
  /-- Raise hit points and their limit. -/
  | raiseMaxHp (amount : Nat)
deriving DecidableEq, Repr

/-- The player after an effect. -/
def PlayerEffect.apply (p : Player) : PlayerEffect → Player
  | heal n => p.heal n
  | raiseMaxHp n => p.raiseMaxHp n

/-- What relics are told about a result. -/
structure Verdict (α : Type) where
  /-- The value of the expression. -/
  raw : α
  /-- The number to hit. -/
  target : α
  /-- How many expressions were evaluated earlier in this combat. -/
  evaluations : Nat
deriving DecidableEq, Repr

/-- **What relics have made of a result so far.** -/
structure Adjustment (α : Type) where
  /-- The value that damage is judged by. -/
  effectiveValue : α
  /-- What the value is multiplied by once every relic has had its say. -/
  damageMultiplier : α
  /-- What gold is multiplied by after combos. -/
  goldMultiplier : α
  /-- Whether an overkill is not answered with damage. -/
  preventOverkillDamage : Bool
  /-- The value that overshot the target before a relic wrapped it below. -/
  wrappedOverkill : Option α
  /-- Changes to the player. -/
  effects : List PlayerEffect
deriving DecidableEq, Repr

/-- A result that no relic has touched. -/
def Adjustment.untouched {α : Type} [Scalar α] (value : α) : Adjustment α :=
  ⟨value, 1, 1, false, none, []⟩

/-- What relics are told about a reward. -/
structure Reward where
  /-- How many combos were triggered. -/
  combos : Nat
  /-- Whether the target was hit exactly. -/
  exact : Bool
deriving DecidableEq, Repr

/-- What is dealt for a turn: dice on the tray and rerolls. -/
structure Deal where
  /-- The dice. -/
  dice : List Die
  /-- The rerolls. -/
  rerolls : Nat
deriving DecidableEq, Repr

/-- The number after the highest on a tray, for one more die. -/
def nextDieId (dice : List Die) : DieId :=
  ⟨(dice.map fun d => d.id.number + 1).max?.getD 0⟩

namespace Relic

variable {σ α : Type} [Scalar α] [Source σ α]

/-- On being acquired. -/
def onPickup (r : Relic) (p : Player) : Player :=
  match r with
  | loadedDice => { p with rerollsPerTurn := p.rerollsPerTurn + 1 }
  | ironSkin => p.raiseMaxHp 15
  | glassCannon =>
    let maxHp := max (p.maxHp - 20) 20
    { p with maxHp := maxHp, hp := min p.hp maxHp }
  | _ => p

/-- A copy of one die of the tray, every die equally likely, that is not held. -/
def mirrorDie (dice : List Die) (s : σ) : List Die × σ :=
  match Source.pick dice s with
  | (some d, s) => (dice ++ [{ d with id := nextDieId dice, held := false }], s)
  | (none, s) => (dice, s)

/-- One more die on the tray. -/
def addBonusDie (dice : List Die) (s : σ) : List Die × σ :=
  let (n, s) := Source.nextInt 1 bonusDie.dieType.sides s
  (dice ++ [{ Die.blank (nextDieId dice) bonusDie with value := some n.toNat }], s)

/-- On a tray being dealt. -/
def onCombatStart (r : Relic) (deal : Deal) (s : σ) : Deal × σ :=
  match r with
  | luckyCoin => ({ deal with rerolls := deal.rerolls + 1 }, s)
  | mirrorShard =>
    let (dice, s) := mirrorDie deal.dice s
    ({ deal with dice := dice }, s)
  | extraHand =>
    let (dice, s) := addBonusDie deal.dice s
    ({ deal with dice := dice }, s)
  | _ => (deal, s)

/-- On a die being rolled. -/
def onRoll (r : Relic) (d : Die) (s : σ) : Die × σ :=
  match r, d.value with
  | chaosOrb, some n => ({ d with value := some (min (n + 1) d.spec.maxFace) }, s)
  | luckyDice, some n =>
    let (m, s) := d.spec.roll s
    ({ d with value := some (max n m) }, s)
  | _, _ => (d, s)

/-- A value beyond a positive target, wrapped below it; a multiple of the target
wraps onto it. -/
def wrap (target value : α) : α :=
  let rest := Scalar.rem value target
  if rest == 0 then target else rest

/-- On a result being judged. -/
def onEvaluate (r : Relic) (v : Verdict α) (a : Adjustment α) : Adjustment α :=
  match r with
  | magnifyingGlass =>
    if Figures.isPrime (Scalar.abs (Figures.roundHalfUp v.raw)) then
      { a with goldMultiplier := a.goldMultiplier * 1.5 }
    else a
  | modularRing =>
    if v.target < a.effectiveValue && 0 < v.target then
      { a with
        wrappedOverkill := a.wrappedOverkill.or (some a.effectiveValue)
        effectiveValue := wrap v.target a.effectiveValue
        preventOverkillDamage := true }
    else a
  | berserkerMark =>
    { a with preventOverkillDamage := true, damageMultiplier := a.damageMultiplier * 0.8 }
  | decimalLens => { a with effectiveValue := Figures.roundHalfUp a.effectiveValue }
  | headStart =>
    if v.evaluations = 0 then { a with effectiveValue := a.effectiveValue + 5 } else a
  | goldenRatio =>
    if Figures.isFibonacci (Scalar.abs (Figures.roundHalfUp v.raw)) then
      { a with effects := a.effects ++ [.heal 3] }
    else a
  | glassCannon => { a with damageMultiplier := a.damageMultiplier * 1.5 }
  | perfectionist =>
    if Scalar.abs (a.effectiveValue - v.target) < Balance.exactTolerance then
      { a with effects := a.effects ++ [.raiseMaxHp 2] }
    else a
  | _ => a

/-- On the player being hit. -/
def onTakeDamage (r : Relic) (damage : Nat) (memo : RelicMemo) : Nat × RelicMemo :=
  match r with
  | thickSkin => (damage - 2, memo)
  | rubberShield =>
    if memo.shieldUsed then (damage, memo) else (0, { memo with shieldUsed := true })
  | doubleOrNothing => (damage * 2, memo)
  | _ => (damage, memo)

/-- The hit points to survive a killing blow with. -/
def onLethalCheck : Relic → Option Nat
  | phoenixFeather => some 1
  | _ => none

/-- On gold being earned; fractions of a coin are dropped. -/
def onGoldGain (r : Relic) (gold : Nat) (reward : Reward) : Nat :=
  match r with
  | goldMagnet => min (gold * 5 / 4) maxCount32
  | comboCrown => gold + 5 * reward.combos
  | sharpenedMind => if reward.exact then min (gold * 3 / 2) maxCount32 else gold
  | echoChamber => if 0 < reward.combos then gold * 2 else gold
  | doubleOrNothing => if reward.exact then gold * 3 else gold
  | _ => gold

/-- On a combat being over. -/
def onCombatEnd (r : Relic) (victory : Bool) (p : Player) : Player :=
  match r with
  | alchemistFlask => if victory then p.heal 3 else p
  | _ => p

/-- On dice being rerolled. -/
def onReroll (r : Relic) (p : Player) : Player :=
  match r with
  | secondWind => p.heal 1
  | _ => p

/-- How often each operator card may be placed in one expression. -/
def cardUses : Relic → Nat
  | recycler => 2
  | _ => 1

end Relic

end Arithmancy
