import Arithmancy.Condition.Draw
import Arithmancy.Encounter.Fault
import Arithmancy.Encounter.Session
import Arithmancy.Monster.Bestiary
import Arithmancy.Run

/-!
# The start of an encounter

An encounter is set up by its own generator, which the seed of the run and the floor
determine. The draws come in a fixed order: the monster, unless it is named; its hit
points; the conditions; the fraction of a decimal target; and the tray, with what
relics add to it.
-/

namespace Arithmancy

/-- **Which monster to fight.** -/
structure Challenge where
  /-- The monster, if it is named; otherwise one is drawn. -/
  monsterId : Option String
  /-- Whether to draw from the elites of the second tier, and not from the regular
  monsters of the first. -/
  elite : Bool
deriving DecidableEq, Repr

namespace Challenge

/-- A named monster. -/
def monster (id : String) : Challenge := ⟨some id, false⟩

/-- A monster to be drawn. -/
def random (elite : Bool) : Challenge := ⟨none, elite⟩

/-- The tier that a monster is drawn from. -/
def tier (c : Challenge) : Nat := if c.elite then 2 else 1

/-- The monsters that one is drawn from. -/
def candidates (c : Challenge) (bestiary : Bestiary) : List String :=
  if c.elite then bestiary.elites c.tier else bestiary.regulars c.tier

/-- The monster to fight, drawn if it is not named. -/
def choose {σ α : Type} [Scalar α] [Source σ α] (c : Challenge) (bestiary : Bestiary) (s : σ) :
    Except StartFault (String × σ) :=
  match c.monsterId with
  | some id => .ok (id, s)
  | none =>
    match Source.pick (c.candidates bestiary) s with
    | (some id, s) => .ok (id, s)
    | (none, _) => .error (.emptyMonsterPool c.elite c.tier)

end Challenge

/-! ## The tray -/

section

variable {σ α : Type} [Scalar α] [Source σ α]

/-- **Deals a tray to a player**: the pool is rolled, the relics adjust the rolls, and
then the relics add dice and rerolls. -/
def Player.dealTray (p : Player) (s : σ) : Deal × σ :=
  let (dice, s) := rollPool p.dicePool s
  let (dice, s) := Relics.onRoll p.relics dice (dice.map (·.id)) s
  Relics.onCombatStart p.relics ⟨dice, p.rerollsPerTurn⟩ s

end

namespace Session

variable {α : Type} [Scalar α]

/-- The session with a fresh tray. -/
def withFreshTray (s : Session α) (p : Player) : Session α :=
  let (deal, generator) := p.dealTray s.generator
  { s with dice := deal.dice, rerollsLeft := deal.rerolls, generator := generator }

/-! ## The encounter -/

/-- The fractions a decimal target can have. -/
def decimalFractions : List α := [0.5, 0.25, 0.75]

/-- A monster whose target gets a fraction if the conditions ask for one. -/
def withFraction {σ : Type} [Source σ α] (m : Monster α) (conditions : List Condition) (s : σ) :
    Monster α × σ :=
  if conditions.contains .decimalTarget then
    match Source.pick (decimalFractions : List α) s with
    | (some fraction, s) => (m.withTarget (Scalar.floor m.hp + fraction), s)
    | (none, s) => (m, s)
  else (m, s)

/-- A condition as it is announced. -/
def announce (c : Condition) : String := s!"{c.name}: {c.description}"

/-- What is told at the start. -/
def introduction (m : Monster α) (conditions : List Condition) : List String :=
  let appears := s!"A {m.name} appears! Target: {Scalar.text m.hp}"
  if conditions.isEmpty then [appears]
  else
    let names := " | ".intercalate (conditions.map announce)
    [appears, s!"Conditions: {names}"]

/-- The session before its first tray is dealt. -/
def opening (m : Monster α) (conditions : List Condition) (generator : Generator α) :
    Session α where
  monster := m
  dice := []
  conditions := conditions
  turn := 1
  rerollsLeft := 0
  phase := .building
  expression := []
  log := introduction m conditions
  lastResolution := none
  bossRerollUsed := false
  generator := generator
  memo := .fresh

/-- Sets up the encounter with a monster of the bestiary. -/
def startWith (run : Run α) (template : Template) (g : Generator α) : Session α :=
  let progress := run.progress
  let (m, g) := Monster.spawn template progress.floor progress.modifiers g
  let (conditions, g) := Condition.pick progress.floor m.hp run.player.hand progress.modifiers g
  let (m, g) := withFraction m conditions g
  (opening m conditions g).withFreshTray run.player

/-- **Starts an encounter** on the floor where the run stands. -/
def start (run : Run α) (bestiary : Bestiary) (challenge : Challenge) :
    Except StartFault (Session α) :=
  if run.player.dicePool.isEmpty then .error .emptyDicePool
  else
    let g : Generator α := .forFloor run.progress.seed run.progress.floor
    match challenge.choose bestiary g with
    | .error fault => .error fault
    | .ok (id, g) =>
      match bestiary.template? id with
      | none => .error (.unknownMonster id)
      | some template => .ok (startWith run template g)

end Session

end Arithmancy
