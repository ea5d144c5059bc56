import Arithmancy.Ascension
import Arithmancy.Chance.Source
import Arithmancy.Dice
import Arithmancy.Monster.Ability

/-!
# Monsters

A template says what is known of a monster before it is met. On a floor, a monster
is made from it: its hit points, which are also the number to hit, grow with the
floor and the ascension, are nudged toward awkward numbers in the depths, and its
attack die climbs.
-/

namespace Arithmancy

/-- What is known of a monster before it is met. -/
structure Template where
  /-- Its identity in the catalog. -/
  id : String
  /-- Its name. -/
  name : String
  /-- The least and the greatest hit points, before any scaling. -/
  hpRange : Nat × Nat
  /-- The die it strikes with at first. -/
  attackDie : DieType
  /-- How many dice it strikes with. -/
  attackDiceCount : Nat
  /-- The tier it belongs to. -/
  tier : Nat
  /-- Whether it is an elite. -/
  elite : Bool
  /-- What it is immune to, if it is a boss. -/
  boss : Option BossAbility
deriving DecidableEq, Repr

/-- **A monster in an encounter.** -/
structure Monster (α : Type) where
  /-- Its identity in the catalog. -/
  id : String
  /-- Its name. -/
  name : String
  /-- Its hit points, and the number to hit. -/
  hp : α
  /-- The hit points it started with. -/
  maxHp : α
  /-- The die it strikes with. -/
  attackDie : DieType
  /-- How many dice it strikes with. -/
  attackDiceCount : Nat
  /-- The tier it belongs to. -/
  tier : Nat
  /-- Whether it is an elite. -/
  elite : Bool
  /-- What it is immune to, if it is a boss. -/
  boss : Option BossAbility
  /-- The least and the greatest hit points, before any scaling. -/
  hpRange : Nat × Nat
deriving DecidableEq, Repr

namespace Monster

section

variable {α : Type}

/-- Whether the monster is a boss. -/
def isBoss (m : Monster α) : Bool := m.boss.isSome

/-- The least and the greatest total of one strike. -/
def attackRange (m : Monster α) : Nat × Nat :=
  (m.attackDiceCount, m.attackDiceCount * m.attackDie.sides)

/-- The monster with other hit points, as if it had started with them. -/
def withTarget (m : Monster α) (hp : α) : Monster α := { m with hp := hp, maxHp := hp }

end

variable {σ α : Type} [Scalar α] [Source σ α]

/-! ## Targets -/

/-- The primes a deep target may be replaced by. -/
def bigPrimes : List Nat := [
  53, 59, 61, 67, 71, 73, 79, 83, 89, 97, 101, 103, 107, 109, 113, 127, 131, 137, 139, 149, 151,
  157, 163, 167, 173, 179, 181, 191, 193, 197]

/-- The number of a floor as an exponent: a signed 32-bit integer. -/
def floorExponent (floor : Nat) : Int := (UInt32.ofNat floor).toInt32.toInt

/-- A base amount grown to a floor and an ascension, rounded at each step. -/
def grow (base : α) (floor : Nat) (modifiers : Modifiers α) : α :=
  let growth := Scalar.powInt Balance.hpGrowthPerFloor (floorExponent floor)
  let grown := Figures.roundHalfUp (base * growth)
  if modifiers.monsterHpMultiplier == 1 then grown
  else Figures.roundHalfUp (grown * modifiers.monsterHpMultiplier)

/-- Hit points drawn from a range and grown, five at least. -/
def scaledHp (range : Nat × Nat) (floor : Nat) (modifiers : Modifiers α) (s : σ) : Nat × σ :=
  let (base, s) := Source.nextInt range.1 range.2 s
  let grown := grow (Scalar.ofInt base) floor modifiers
  (max (Scalar.toNat maxCount32 grown) Balance.minMonsterHp, s)

/-- How far the depths are reached, from zero to one at the fifteenth floor. -/
def difficulty (floor : Nat) : α := Scalar.least (Scalar.ofNat floor / 15) 1

/-- Moves a target to the nearest prime, if that is at most five away. -/
def nudgeToPrime (hp : Nat) : Nat :=
  let prime := Figures.nearestPrime hp
  if prime - hp ≤ 5 && hp - prime ≤ 5 then prime else hp

/-- Whether a target is a multiple of two, three or five. -/
def isHandy (hp : Nat) : Bool := hp % 2 == 0 || hp % 3 == 0 || hp % 5 == 0

/-- The big primes from four fifths of a target to thirteen tenths of it. -/
def primesNear (α : Type) [Scalar α] (hp : Nat) : List Nat :=
  let low := Scalar.toNat maxCount32 (Figures.roundHalfUp ((Scalar.ofNat hp : α) * 0.8))
  let high := Scalar.toNat maxCount32 (Figures.roundHalfUp ((Scalar.ofNat hp : α) * 1.3))
  bigPrimes.filter fun p => low ≤ p && p ≤ high

/-- The first bias: toward a prime close by. -/
def biasToPrime (floor hp : Nat) (s : σ) : Nat × σ :=
  let (x, s) := Source.draw s
  (if x < 0.3 + difficulty floor * 0.4 then nudgeToPrime hp else hp, s)

/-- The second bias: away from multiples of small primes, by one to three. A target is a
32-bit counter, which starts from zero again after its greatest value. -/
def biasFromHandy (floor hp : Nat) (s : σ) : Nat × σ :=
  let (x, s) := Source.draw s
  if x < difficulty floor * 0.5 && isHandy hp then
    let (n, s) := Source.nextInt 1 3 s
    ((hp + n.toNat) % (maxCount32 + 1), s)
  else (hp, s)

/-- The third bias, from the eighth floor on: toward a big prime of similar size. -/
def biasToBigPrime (floor hp : Nat) (s : σ) : Nat × σ :=
  if floor < 8 then (hp, s)
  else
    let (x, s) := Source.draw s
    if x < 0.3 then
      match primesNear α hp with
      | [] => (hp, s)
      | candidates =>
        let (i, s) := Source.nextIndex candidates.length s
        (candidates[i]?.getD hp, s)
    else (hp, s)

/-- **Biases a target toward numbers that are awkward to build.** -/
def harderTarget (floor hp : Nat) (s : σ) : Nat × σ :=
  let (hp, s) := biasToPrime floor hp s
  let (hp, s) := biasFromHandy floor hp s
  let (hp, s) := biasToBigPrime floor hp s
  (max hp Balance.minMonsterHp, s)

/-! ## Monsters -/

/-- The die a monster strikes with on a floor: one step further for every fourth
floor, and for the ascension. A die outside the progression counts as its second. -/
def climbedDie (die : DieType) (floor : Nat) (modifiers : Modifiers α) : DieType :=
  let progression := DieType.attackProgression
  let base := (progression.idxOf? die).getD 1
  let index := min (base + floor / 4 + modifiers.attackDieBonus) (progression.length - 1)
  progression[index]?.getD die

/-- **Makes a monster from its template** for a floor and an ascension. -/
def spawn (template : Template) (floor : Nat) (modifiers : Modifiers α) (s : σ) : Monster α × σ :=
  let (hp, s) := scaledHp template.hpRange floor modifiers s
  let (hp, s) := if 3 ≤ floor then harderTarget floor hp s else (hp, s)
  ({ id := template.id
     name := template.name
     hp := Scalar.ofNat hp
     maxHp := Scalar.ofNat hp
     attackDie := climbedDie template.attackDie floor modifiers
     attackDiceCount := max template.attackDiceCount 1
     tier := template.tier
     elite := template.elite
     boss := template.boss
     hpRange := template.hpRange }, s)

/-- Draws a fresh target, grown as at the start and without any bias. -/
def rerollTarget (m : Monster α) (floor : Nat) (modifiers : Modifiers α) (s : σ) :
    Monster α × σ :=
  let (hp, s) := scaledHp m.hpRange floor modifiers s
  (m.withTarget (Scalar.ofNat hp), s)

end Monster

end Arithmancy
