import Arithmancy.Encounter.Preview
import Arithmancy.Encounter.Start

/-!
# Turns

A submission is either refused, and then nothing is spent, or it resolves a turn. A
turn goes through fixed stages: the value of the expression is judged, with what
relics make of it; the monster strikes back; the player suffers, and may be saved;
gold is earned; and the encounter is over or goes on with a fresh tray. Each stage is
a definition of its own, and `Session.submit` puts them together.
-/

namespace Arithmancy

/-! ## Gold -/

/-- What the gold of a turn is reckoned from. -/
structure Bounty (α : Type) where
  /-- Whether the monster died. -/
  monsterDead : Bool
  /-- Whether it was an elite. -/
  elite : Bool
  /-- Whether the target was hit exactly. -/
  exact : Bool
  /-- The floor. -/
  floor : Nat
  /-- The number to hit. -/
  target : α
  /-- What the ascension multiplies gold by. -/
  ascensionMultiplier : α
  /-- What combos multiply gold by. -/
  comboMultiplier : α
  /-- What relics multiply gold by. -/
  relicMultiplier : α
deriving DecidableEq, Repr

namespace Bounty

variable {α : Type} [Scalar α]

/-- Gold for a kill: a base by kind, and two for every floor. -/
def killGold (b : Bounty α) (balance : Balance α) : α :=
  if b.monsterDead then
    let base := if b.elite then balance.eliteGold else balance.baseGold
    Scalar.ofNat base + Scalar.ofNat (b.floor * 2)
  else 0

/-- Gold for an exact hit: half the target and ten, kill or not. -/
def exactGold (b : Bounty α) : α :=
  if b.exact then Scalar.floor (b.target / 2) + 10 else 0

/-- Gold multiplied and rounded down, unless the multiplier is one. -/
def scale (gold multiplier : α) : α :=
  if multiplier == 1 then gold else Scalar.floor (gold * multiplier)

/-- **The gold of a turn**, before relics adjust it: each multiplier is applied in
turn and rounded down. -/
def gold (b : Bounty α) (balance : Balance α) : Nat :=
  let base := b.killGold balance
  let base := if b.exact then base + b.exactGold else base
  let multipliers := [b.ascensionMultiplier, b.comboMultiplier, b.relicMultiplier]
  Scalar.toNat maxCount32 (multipliers.foldl scale base)

end Bounty

/-! ## Judging a result -/

/-- What a submission comes to, before the monster answers. -/
structure Judgement (α : Type) where
  /-- The value of the expression. -/
  raw : α
  /-- The number to hit. -/
  target : α
  /-- The combos of the expression. -/
  combos : ComboReport α
  /-- What relics made of the value. -/
  appraisal : Appraisal α
  /-- What the value does to the monster. -/
  outcome : Outcome α
deriving DecidableEq, Repr

namespace Judgement

variable {α : Type}

/-- Whether relics keep an overkill from being answered with damage. -/
def overkillPrevented (j : Judgement α) : Bool :=
  j.outcome.isOverkill && j.appraisal.preventOverkillDamage

variable [Scalar α]

/-- The hit points left to the monster: none after a kill; all after a block; and
otherwise the target less the wound, rounded up. -/
def remainder (j : Judgement α) : α :=
  match j.outcome.kind with
  | .exact | .overkill | .nearMiss => 0
  | .underkill => Scalar.ceil (j.target - Scalar.positivePart j.outcome.dealt)
  | .blocked _ => j.target

/-- Whether the monster dies. -/
def monsterDead (j : Judgement α) : Bool := j.remainder ≤ 0

end Judgement

namespace Session

variable {α : Type} [Scalar α]

/-- **Whether a submission is accepted**, and with what value: the encounter must not
be over, the expression must have a value, and no condition may object. -/
def accept (s : Session α) : Except (SubmissionFault α) α :=
  if s.isOver then .error .notBuilding
  else
    match s.expression.evaluate with
    | .error fault => .error (.expression fault)
    | .ok evaluation =>
      match s.checkConditions evaluation.result with
      | .error violation => .error (.condition violation)
      | .ok () => .ok evaluation.result

/-- What relics are told about a result. -/
def verdict (s : Session α) (raw : α) : Verdict α := ⟨raw, s.monster.hp, s.memo.evaluations⟩

/-- What a result does to the monster: a boss may be immune to it; otherwise it is
judged by the value relics made of it, or by the value they wrapped. -/
def outcomeOf (s : Session α) (rules : DamageRules α) (raw : α) (a : Appraisal α) : Outcome α :=
  match s.immunity? raw with
  | some ability => .blocked (.boss ability raw)
  | none => rules.judge s.conditions (a.wrappedOverkill.getD a.effectiveValue) s.monster.hp

/-- **Judges a submission**, and counts the evaluation. -/
def judge (s : Session α) (relics : List Relic) (rules : DamageRules α) (raw : α) :
    Judgement α × RelicMemo :=
  let (appraisal, memo) := Relics.onEvaluate relics (s.verdict raw) s.memo
  ({ raw := raw
     target := s.monster.hp
     combos := .ofAttempt (s.attempt raw)
     appraisal := appraisal
     outcome := s.outcomeOf rules raw appraisal }, memo)

end Session

/-! ## The monster strikes back -/

/-- How the monster answered. -/
structure Retaliation (α : Type) where
  /-- What it rolled. -/
  rolls : List Nat
  /-- The damage the player takes, after relics. -/
  damage : Nat
  /-- What relics remember. -/
  memo : RelicMemo
  /-- The generator after the rolls. -/
  generator : Generator α
deriving DecidableEq, Repr

section

variable {α : Type} [Scalar α]

/-- Rolls the dice of a monster that strikes. -/
def Monster.rollAttack {σ : Type} [Source σ α] (m : Monster α) (g : σ) : List Nat × σ :=
  Source.mapDraws
    (fun (_ : Unit) g => let (n, g) := Source.nextInt 1 m.attackDie.sides g; (n.toNat, g))
    (List.replicate m.attackDiceCount ()) g

/-- What is left of a strike after relics; one that shows nothing is not asked about. -/
def soften (relics : List Relic) (total : Nat) (memo : RelicMemo) : Nat × RelicMemo :=
  if 0 < total then Relics.onTakeDamage relics total memo else (total, memo)

/-- **The answer of the monster.** Its dice are rolled and its strike is softened even
if the damage of an overkill is prevented, so that later draws do not depend on it. -/
def Judgement.retaliation (j : Judgement α) (m : Monster α) (relics : List Relic)
    (memo : RelicMemo) (g : Generator α) : Retaliation α :=
  let (rolls, g) := if j.outcome.retaliate then m.rollAttack g else ([], g)
  let (damage, memo) := soften relics (rolls.foldl (· + ·) 0) memo
  ⟨rolls, if j.overkillPrevented then 0 else damage, memo, g⟩

end

/-! ## The player -/

namespace Player

/-- The player after the effects that relics asked for. -/
def affected (p : Player) (effects : List PlayerEffect) : Player :=
  effects.foldl PlayerEffect.apply p

/-- **The player after a hit.** If it kills, a relic among the given ones may save the
player. -/
def suffer (p : Player) (relics : List Relic) (damage : Nat) : Player × Option Rescue :=
  let hurt := p.takeDamage damage
  if hurt.isAlive then (hurt, none)
  else
    match Relics.rescue? relics with
    | some rescue => (rescue.apply hurt, some rescue)
    | none => (hurt, none)

end Player

/-- Where an encounter stands after a turn; a kill comes before a death. -/
def Phase.after (monsterDead playerDead : Bool) : Phase :=
  if monsterDead then .victory else if playerDead then .defeat else .building

/-! ## What is told -/

namespace Judgement

variable {α : Type} [Scalar α]

/-- The strike of a monster in words. -/
def rollText (m : Monster α) (r : Retaliation α) : String :=
  let rolls := " + ".intercalate (r.rolls.map fun n => toString n)
  s!"{r.rolls.length}{label m.attackDie}: [{rolls}] = {r.damage} damage!"

/-- The outcome of a turn in words. -/
def outcomeLine (j : Judgement α) (m : Monster α) (r : Retaliation α) : String :=
  let strike := rollText m r
  match j.outcome.kind with
  | .exact =>
    let value := Scalar.text j.appraisal.effectiveValue
    s!"EXACT HIT! {value} = {Scalar.text j.target}. Bonus gold!"
  | .nearMiss => s!"Near miss! Monster slain, but it rolls {strike}"
  | .overkill =>
    if 0 < r.damage then s!"Overkill! Monster slain, but it rolls {strike}"
    else if j.overkillPrevented then "Overkill! Monster slain! (overkill damage prevented)"
    else "Overkill! Monster slain!"
  | .underkill =>
    s!"Underkill! Monster has {Scalar.text j.remainder} HP left. It rolls {strike}"
  | .blocked reason => s!"{reason.text} Monster rolls {strike}"

/-- A victory in words. -/
def victoryLine (j : Judgement α) (gold : Nat) : String :=
  let earned := s!"Victory! Earned {gold} gold."
  if 1 < j.combos.totalMultiplier then
    s!"{earned} (x{Scalar.text j.combos.totalMultiplier} from combos!)"
  else earned

/-- The end of a turn in words. -/
def phaseLines (j : Judgement α) (gold : Nat) : Phase → List String
  | .victory => [j.victoryLine gold]
  | .defeat => ["You have been defeated..."]
  | .building => []

end Judgement

/-! ## What is counted -/

/-- The greater of two multipliers. -/
def bestMultiplier {α : Type} [Scalar α] (x y : α) : α := if x < y then y else x

/-- **The tally after a turn.** -/
def Tally.after {α : Type} [Scalar α] (t : Tally α) (r : Resolution α) : Tally α where
  turnsPlayed := t.turnsPlayed + 1
  monstersKilled := if r.monsterDead then t.monstersKilled + 1 else t.monstersKilled
  exactHits := if r.outcome.isExact then t.exactHits + 1 else t.exactHits
  totalDamageDealt :=
    if 0 < r.outcome.dealt then
      t.totalDamageDealt + Scalar.toNat maxCount64 (Figures.roundHalfUp r.outcome.dealt)
    else t.totalDamageDealt
  totalDamageTaken := t.totalDamageTaken + r.damageTaken
  totalCombosTriggered := t.totalCombosTriggered + r.combos.combos.length
  bestComboMultiplier :=
    if r.combos.isEmpty then t.bestComboMultiplier
    else bestMultiplier t.bestComboMultiplier r.combos.totalMultiplier
  goldEarned := t.goldEarned + r.goldEarned

/-! ## The turn -/

/-- What a turn leaves behind. -/
structure TurnResult (α : Type) where
  /-- What happened. -/
  resolution : Resolution α
  /-- The encounter after the turn. -/
  session : Session α
  /-- The run after the turn. -/
  run : Run α
deriving DecidableEq, Repr

namespace Session

variable {α : Type} [Scalar α]

/-- The bounty of a turn. -/
def bounty (s : Session α) (progress : Progress α) (j : Judgement α) : Bounty α where
  monsterDead := j.monsterDead
  elite := s.monster.elite
  exact := j.outcome.isExact
  floor := progress.floor
  target := j.target
  ascensionMultiplier := progress.modifiers.goldMultiplier
  comboMultiplier := j.combos.totalMultiplier
  relicMultiplier := j.appraisal.goldMultiplier

/-- The gold of a turn, relics included. -/
def goldOf (s : Session α) (run : Run α) (balance : Balance α) (j : Judgement α) : Nat :=
  Relics.onGoldGain run.player.relics ((s.bounty run.progress j).gold balance)
    ⟨j.combos.combos.length, j.outcome.isExact⟩

/-- The encounter with its next turn begun. -/
def nextTurn (s : Session α) (p : Player) : Session α :=
  let line := s!"--- Turn {s.turn + 1} --- New target: {Scalar.text s.monster.hp}"
  { s with turn := s.turn + 1, log := s.log ++ [line] }.withFreshTray p

/-- **Resolves a turn** whose expression has a value that is accepted. -/
def resolve (s : Session α) (run : Run α) (balance : Balance α) (raw : α) : TurnResult α :=
  let relics := run.player.relics
  let rules := DamageRules.inForce balance run.progress.modifiers
  let (j, memo) := s.judge relics rules raw
  let r := j.retaliation s.monster relics memo s.generator
  let (survivor, rescue) := (run.player.affected j.appraisal.effects).suffer relics r.damage
  let gold := s.goldOf run balance j
  let phase := Phase.after j.monsterDead (!survivor.isAlive)
  let paid := survivor.earn gold
  let player := if phase.isOver then paid.onCombatEnd (phase == .victory) else paid
  let hp := Scalar.positivePart j.remainder
  let resolution : Resolution α := {
    turn := s.turn
    rawValue := raw
    value := j.appraisal.effectiveValue
    target := j.target
    outcome := j.outcome
    combos := j.combos
    attackDie := s.monster.attackDie
    attackRolls := r.rolls
    damageTaken := r.damage
    goldEarned := gold
    monsterHp := hp
    playerHp := player.hp
    monsterDead := j.monsterDead
    playerDead := !survivor.isAlive
    rescuedBy := rescue.map (·.relic)
    phase := phase }
  let lines := j.combos.summary?.toList ++ [j.outcomeLine s.monster r]
    ++ (rescue.map Rescue.message).toList ++ j.phaseLines gold phase
  let settled : Session α := { s with
    monster := { s.monster with hp := hp }
    expression := []
    phase := phase
    log := s.log ++ lines
    lastResolution := some resolution
    generator := r.generator
    memo := r.memo }
  { resolution := resolution
    session := if phase.isOver then settled else settled.nextTurn player
    run :=
      { player := player
        progress := { run.progress with tally := run.progress.tally.after resolution } } }

/-- **Submits the expression**: refused with a fault, or resolved into a turn. -/
def submit (s : Session α) (run : Run α) (balance : Balance α) :
    Except (SubmissionFault α) (TurnResult α) :=
  match s.accept with
  | .error fault => .error fault
  | .ok raw => .ok (s.resolve run balance raw)

end Session

end Arithmancy
