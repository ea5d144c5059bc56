import Arithmancy.Text

/-!
# Relics

A relic changes the rules for the player who owns it. This module is the catalog:
which relics there are, what the player is told of them, how rare they are, and at
which points of a combat they take part.
-/

namespace Arithmancy

/-- The relics, in catalog order. -/
inductive Relic where
  | loadedDice | ironSkin | goldMagnet | luckyCoin | magnifyingGlass | mirrorShard | modularRing
  | thickSkin | decimalLens | berserkerMark | comboCrown | phoenixFeather | extraHand
  | sharpenedMind | alchemistFlask | chaosOrb | luckyDice | recycler | headStart
  | doubleOrNothing | echoChamber | rubberShield | goldenRatio | glassCannon | secondWind
  | perfectionist
deriving DecidableEq, Repr

/-- The points at which a relic can take part. -/
inductive Hook where
  /-- When it is acquired. -/
  | pickup
  /-- When a tray is dealt. -/
  | combatStart
  /-- When dice are rolled. -/
  | roll
  /-- When a result is judged. -/
  | evaluate
  /-- When the player is hit. -/
  | takeDamage
  /-- When the player would die. -/
  | lethalCheck
  /-- When gold is earned. -/
  | goldGain
  /-- When a combat is over. -/
  | combatEnd
  /-- When dice are rerolled. -/
  | reroll
  /-- Always. -/
  | passive
deriving DecidableEq, Repr

namespace Hook

instance : Labelled Hook where
  all := [pickup, combatStart, roll, evaluate, takeDamage, lethalCheck, goldGain, combatEnd,
    reroll, passive]
  label
    | pickup => "PICKUP"
    | combatStart => "COMBAT_START"
    | roll => "ROLL"
    | evaluate => "EVALUATE"
    | takeDamage => "TAKE_DAMAGE"
    | lethalCheck => "LETHAL_CHECK"
    | goldGain => "GOLD_GAIN"
    | combatEnd => "COMBAT_END"
    | reroll => "REROLL"
    | passive => "PASSIVE"

/-- The bit that stands for a hook in a set of hooks. -/
def bit (h : Hook) : Nat := Nat.pow 2 (Labelled.index h)

end Hook

/-- How rare a relic is. -/
inductive RelicRarity where
  | common | uncommon | rare | legendary
deriving DecidableEq, Repr

namespace RelicRarity

instance : Labelled RelicRarity where
  all := [common, uncommon, rare, legendary]
  label
    | common => "common"
    | uncommon => "uncommon"
    | rare => "rare"
    | legendary => "legendary"

/-- The first floor on which relics this rare are offered. -/
def minFloor : RelicRarity → Nat
  | common => 0
  | uncommon => 2
  | rare => 5
  | legendary => 8

end RelicRarity

namespace Relic

instance : Labelled Relic where
  all := [loadedDice, ironSkin, goldMagnet, luckyCoin, magnifyingGlass, mirrorShard, modularRing,
    thickSkin, decimalLens, berserkerMark, comboCrown, phoenixFeather, extraHand, sharpenedMind,
    alchemistFlask, chaosOrb, luckyDice, recycler, headStart, doubleOrNothing, echoChamber,
    rubberShield, goldenRatio, glassCannon, secondWind, perfectionist]
  label
    | loadedDice => "loaded_dice"
    | ironSkin => "iron_skin"
    | goldMagnet => "gold_magnet"
    | luckyCoin => "lucky_coin"
    | magnifyingGlass => "magnifying_glass"
    | mirrorShard => "mirror_shard"
    | modularRing => "modular_ring"
    | thickSkin => "thick_skin"
    | decimalLens => "decimal_lens"
    | berserkerMark => "berserker_mark"
    | comboCrown => "combo_crown"
    | phoenixFeather => "phoenix_feather"
    | extraHand => "extra_hand"
    | sharpenedMind => "sharpened_mind"
    | alchemistFlask => "alchemist_flask"
    | chaosOrb => "chaos_orb"
    | luckyDice => "lucky_dice"
    | recycler => "recycler"
    | headStart => "head_start"
    | doubleOrNothing => "double_or_nothing"
    | echoChamber => "echo_chamber"
    | rubberShield => "rubber_shield"
    | goldenRatio => "golden_ratio"
    | glassCannon => "glass_cannon"
    | secondWind => "second_wind"
    | perfectionist => "perfectionist"

/-- The name shown to the player. -/
def name : Relic → String
  | loadedDice => "Loaded Dice"
  | ironSkin => "Iron Skin"
  | goldMagnet => "Gold Magnet"
  | luckyCoin => "Lucky Coin"
  | magnifyingGlass => "Magnifying Glass"
  | mirrorShard => "Mirror Shard"
  | modularRing => "Ring of Modular Arithmetic"
  | thickSkin => "Thick Skin"
  | decimalLens => "Decimal Lens"
  | berserkerMark => "Berserker's Mark"
  | comboCrown => "Combo Crown"
  | phoenixFeather => "Phoenix Feather"
  | extraHand => "Extra Hand"
  | sharpenedMind => "Sharpened Mind"
  | alchemistFlask => "Alchemist's Flask"
  | chaosOrb => "Chaos Orb"
  | luckyDice => "Lucky Dice"
  | recycler => "Recycler"
  | headStart => "Head Start"
  | doubleOrNothing => "Double or Nothing"
  | echoChamber => "Echo Chamber"
  | rubberShield => "Rubber Shield"
  | goldenRatio => "Golden Ratio"
  | glassCannon => "Glass Cannon Relic"
  | secondWind => "Second Wind"
  | perfectionist => "Perfectionist"

/-- What the player is told of it. -/
def description : Relic → String
  | loadedDice => "+1 reroll per turn."
  | ironSkin => "+15 max HP."
  | goldMagnet => "Earn 25% more gold from combat."
  | luckyCoin => "Start each combat with +1 reroll."
  | magnifyingGlass => "Prime number results get an extra x1.5 multiplier."
  | mirrorShard => "Duplicate one random die at the start of each combat."
  | modularRing => "Overkill damage wraps around (mod target). No self-damage from overkill."
  | thickSkin => "Reduce all damage taken by 2."
  | decimalLens => "Your results are rounded to the nearest integer (helps with division)."
  | berserkerMark => "Overkill no longer damages you, but you deal 20% less effective damage."
  | comboCrown => "Each combo triggered gives +5 bonus gold."
  | phoenixFeather => "Once per run: survive a killing blow with 1 HP. Consumed on use."
  | extraHand => "Start each combat with one free bonus d6."
  | sharpenedMind => "Exact hits give double gold bonus."
  | alchemistFlask => "Heal 3 HP after each combat victory."
  | chaosOrb => "All dice rolls get +1 to their result (capped at max faces)."
  | luckyDice => "All dice roll twice and keep the higher result."
  | recycler => "Each operator can be placed twice per expression."
  | headStart => "The first expression you evaluate each combat gets +5 to the result."
  | doubleOrNothing => "Exact hits give 3x gold. Overkill/underkill deals double retaliation."
  | echoChamber => "Gold multiplier from combos is doubled."
  | rubberShield => "The first hit each combat deals 0 damage to you."
  | goldenRatio => "Fibonacci number results heal you for 3 HP."
  | glassCannon => "Deal 50% more effective damage, but you have 20 less max HP."
  | secondWind => "Heal 1 HP every time you reroll dice."
  | perfectionist => "Exact hits permanently increase your max HP by 2."

/-- How rare it is. -/
def rarity : Relic → RelicRarity
  | loadedDice | ironSkin | goldMagnet | luckyCoin | decimalLens | alchemistFlask => .common
  | magnifyingGlass | thickSkin | comboCrown | extraHand | sharpenedMind | headStart
  | rubberShield | secondWind => .uncommon
  | mirrorShard | berserkerMark | chaosOrb | recycler | doubleOrNothing | goldenRatio
  | glassCannon => .rare
  | modularRing | phoenixFeather | luckyDice | echoChamber | perfectionist => .legendary

/-- **The points at which it takes part.** -/
def hooks : Relic → List Hook
  | loadedDice | ironSkin => [.pickup]
  | goldMagnet | comboCrown | sharpenedMind | echoChamber => [.goldGain]
  | luckyCoin | mirrorShard | extraHand => [.combatStart]
  | magnifyingGlass | modularRing | decimalLens | berserkerMark | headStart | goldenRatio
  | perfectionist => [.evaluate]
  | thickSkin | rubberShield => [.takeDamage]
  | phoenixFeather => [.lethalCheck]
  | alchemistFlask => [.combatEnd]
  | chaosOrb | luckyDice => [.roll]
  | recycler => [.passive]
  | doubleOrNothing => [.takeDamage, .goldGain]
  | glassCannon => [.pickup, .evaluate]
  | secondWind => [.reroll]

/-- Whether it takes part at a point. -/
def hasHook (h : Hook) (r : Relic) : Bool := r.hooks.contains h

/-- The points at which it takes part, as a set of bits. -/
def hookBits (r : Relic) : Nat := (r.hooks.map Hook.bit).foldl (· ||| ·) 0

/-- Whether it is lost when it triggers. -/
def consumable : Relic → Bool
  | phoenixFeather => true
  | _ => false

/-- Whether it keeps something in mind that a new combat resets. -/
def perCombat : Relic → Bool
  | rubberShield => true
  | _ => false

/-- The relics offered on a floor, the most common first. -/
def pool (floor : Nat) : List Relic :=
  let rarities := (Labelled.all : List RelicRarity).filter fun q => q.minFloor ≤ floor
  rarities.flatMap fun q => (Labelled.all : List Relic).filter fun r => r.rarity == q

end Relic

end Arithmancy
