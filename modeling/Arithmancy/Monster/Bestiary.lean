import Arithmancy.Monster.Basic

/-!
# Bestiaries

A bestiary is asked for a monster by its identity, for the regular monsters or the
elites of a tier, and for the boss at the end of an act. What it answers to one of these
questions need not agree with what it answers to another: a monster may be listed that
is not found.

Usually a bestiary is a list of monsters (`Bestiary.ofList`). Then answers keep the order
of the list, so that a draw over them can be repeated.
-/

namespace Arithmancy

/-- **The monsters a run can meet.** -/
structure Bestiary where
  /-- The monster with an identity. -/
  template? : String → Option Template
  /-- The identities of the monsters of a tier that are neither elites nor bosses. -/
  regulars : Nat → List String
  /-- The identities of the elites of a tier that are not bosses. -/
  elites : Nat → List String
  /-- The identity of the boss at the end of an act. -/
  bossForAct? : Nat → Option String

namespace Bestiary

/-- The tier of the boss at the end of an act. -/
def bossTier (b : Bestiary) (act : Nat) : Option Nat :=
  (b.bossForAct? act >>= b.template?).map (·.tier)

/-- The identities of the monsters with a property. -/
def idsWhere (templates : List Template) (p : Template → Bool) : List String :=
  (templates.filter p).map (·.id)

/-- **The bestiary of a list of monsters**, with the tier of the boss of each act. Of two
monsters with one identity the first is found, and of two bosses of one tier the first
stands at the end of the act. -/
def ofList (templates : List Template) (bossTier : Nat → Nat) : Bestiary where
  template? id := templates.find? fun t => t.id == id
  regulars tier := idsWhere templates fun t => t.tier == tier && !t.elite && t.boss.isNone
  elites tier := idsWhere templates fun t => t.tier == tier && t.elite && t.boss.isNone
  bossForAct? act :=
    (templates.find? fun t => t.tier == bossTier act && t.boss.isSome).map (·.id)

/-- A bestiary of one's own, whose bosses stand on every tenth tier. -/
def ofTemplates (templates : List Template) : Bestiary := ofList templates fun act => act * 10

/-! ## The built-in bestiary -/

/-- A regular monster. -/
def regular (id name : String) (hpRange : Nat × Nat) (attackDie : DieType)
    (attackDiceCount tier : Nat) : Template :=
  ⟨id, name, hpRange, attackDie, attackDiceCount, tier, false, none⟩

/-- An elite. -/
def elite (id name : String) (hpRange : Nat × Nat) (attackDie : DieType)
    (attackDiceCount tier : Nat) : Template :=
  { regular id name hpRange attackDie attackDiceCount tier with elite := true }

/-- A boss, which is an elite, too. -/
def boss (id name : String) (hpRange : Nat × Nat) (attackDie : DieType)
    (attackDiceCount tier : Nat) (ability : BossAbility) : Template :=
  { elite id name hpRange attackDie attackDiceCount tier with boss := some ability }

/-- The monsters of the first act, on tiers one and two. -/
def actOne : List Template := [
  regular "slime" "Gel Cube" (8, 16) .d4 1 1,
  regular "rat" "Sewer Rat" (6, 12) .d6 1 1,
  regular "goblin" "Goblin Arithmancer" (12, 22) .d6 1 1,
  regular "skeleton" "Bone Counter" (15, 25) .d6 1 1,
  regular "bat" "Cave Bat" (5, 10) .d8 1 1,
  regular "spider" "Webweaver" (10, 18) .d6 1 1,
  regular "mushroom" "Toxic Spore" (7, 14) .d4 1 1,
  regular "snake" "Viper" (8, 15) .d8 1 1,
  regular "ghost" "Wraith" (11, 19) .d6 1 1,
  elite "ogre" "Ogre Mathematician" (30, 45) .d8 2 2,
  elite "mimic" "Mimic Chest" (25, 35) .d10 2 2,
  elite "gargoyle" "Stone Gargoyle" (28, 40) .d8 2 2,
  boss "prime_minister" "The Prime Minister" (50, 65) .d4 2 10 .primeOnly]

/-- The monsters of the second act, on tiers three and four. -/
def actTwo : List Template := [
  regular "golem" "Clay Golem" (20, 35) .d8 1 3,
  regular "wizard" "Rogue Wizard" (18, 28) .d10 1 3,
  regular "imp" "Flame Imp" (15, 25) .d10 1 3,
  regular "wolf" "Dire Wolf" (22, 32) .d8 2 3,
  regular "eye" "Floating Eye" (16, 26) .d8 1 3,
  regular "troll" "Bridge Troll" (25, 38) .d8 2 3,
  regular "scorpion" "Giant Scorpion" (20, 30) .d10 1 3,
  regular "shadow" "Shadow Stalker" (18, 28) .d10 1 3,
  elite "dragon" "Young Dragon" (45, 65) .d10 2 4,
  elite "lich" "Lich Numeromancer" (40, 55) .d12 2 4,
  elite "hydra" "Hydra" (50, 70) .d8 3 4,
  boss "palindromer" "The Palindromer" (70, 90) .d6 2 20 .palindromeOnly]

/-- The monsters of the third act, on tiers five and six. -/
def actThree : List Template := [
  regular "demon" "Infernal Demon" (35, 55) .d10 2 5,
  regular "elemental" "Chaos Elemental" (30, 50) .d12 1 5,
  regular "chimera" "Chimera" (40, 60) .d10 2 5,
  regular "phantom" "Phantom" (28, 45) .d12 1 5,
  regular "wyvern" "Wyvern" (38, 58) .d10 2 5,
  regular "minotaur" "Minotaur" (45, 65) .d10 2 5,
  regular "necromancer" "Necromancer" (32, 48) .d12 2 5,
  regular "colossus" "Iron Colossus" (50, 70) .d8 3 5,
  elite "ancient_dragon" "Ancient Dragon" (65, 90) .d12 3 6,
  elite "archlich" "Archlich" (55, 80) .d12 2 6,
  elite "seraph" "Fallen Seraph" (60, 85) .d10 3 6,
  boss "the_infinity" "The Infinity" (100, 130) .d8 3 30 .perfectSquareOnly]

/-- The tier of the built-in boss of an act: there are three acts with a boss of
their own, and every later act ends with the last of them. -/
def builtInBossTier (act : Nat) : Nat :=
  if act ≤ 1 then 10 else if act = 2 then 20 else 30

/-- The monsters the game comes with. -/
def builtIn.templates : List Template := actOne ++ actTwo ++ actThree

/-- **The bestiary the game comes with.** -/
def builtIn : Bestiary := ofList builtIn.templates builtInBossTier

end Bestiary

end Arithmancy
