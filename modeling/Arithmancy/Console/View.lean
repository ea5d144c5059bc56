import Arithmancy.Game.Basic

/-!
# What the console shows

The texts the console shows: the list of commands, the table, a preview and the end of
a run. Every text ends its last line.
-/

namespace Arithmancy

namespace Console

/-- A line of output. -/
def line (s : String) : String := s ++ "\n"

/-- Lines of output, one after another. -/
def lines (ss : List String) : String := String.join (ss.map line)

/-- The list of commands. -/
def helpText : String := lines [
  "Commands:",
  "  d <n>        place die n",
  "  o <n>        place operator card n",
  "  rm <i>       remove token i",
  "  mv <i> <j>   move token i before slot j",
  "  clear        clear the expression",
  "  hold <n>     hold or release die n",
  "  reroll       reroll unheld dice",
  "  boss         reroll the boss target (once)",
  "  preview      show what submitting would do",
  "  go           submit the expression",
  "  show         redraw the table",
  "  giveup       abandon the run",
  "  quit         leave"]

section

variable {α : Type}

/-- A die on the table: its position and kind, the number it shows, a star if it is
held, and a mark if the expression uses it. -/
def dieText (s : Session α) (d : Die) (i : Nat) : String :=
  let value := (d.value.map toString).getD "-"
  let held := if d.held then "*" else ""
  let used := if s.isPlaced d.id then "'" else ""
  s!"[{i + 1}] {label d.spec.dieType}={value}{held}{used}"

/-- A card of the hand: its position and symbol. -/
def cardText (op : Operator) (i : Nat) : String := s!"[{i + 1}] {op.symbol}"

/-- Texts side by side. -/
def row (texts : List String) : String := "  ".intercalate texts

end

variable {α : Type} [Scalar α]

/-- The line of the expression. -/
def expressionLine (s : Session α) : String := s!"Expr: {s.expression.text}"

/-- The line that names the floor, the monster and the player. -/
def headline (run : Run α) (m : Monster α) : String :=
  let p := run.player
  s!"Floor {run.progress.floor} | {m.name} ({m.attackDiceCount}{label m.attackDie})"
    ++ s!" target {Scalar.text m.hp} | You {p.hp}/{p.maxHp} HP, {p.gold} gold"

/-- **The table**: the monster and its conditions, the dice, the hand, the expression,
and where the turn stands. -/
def tableText (run : Run α) (s : Session α) : String :=
  lines <|
    ["", headline run s.monster]
    ++ (s.monster.boss.map fun ability => s!"Boss: {ability.description}").toList
    ++ s.conditions.map (fun c => s!"Condition: {Session.announce c}")
    ++ ["Dice: " ++ row (s.dice.mapIdx fun i d => dieText s d i),
        "Hand: " ++ row (run.player.hand.mapIdx fun i op => cardText op i),
        expressionLine s,
        s!"Turn {s.turn} | rerolls left {s.rerollsLeft}"]

/-- The line about the blow the monster could strike. -/
def retaliationLine (d : DamagePreview α) : String :=
  if d.attackDiceCount = 0 then "No retaliation."
  else s!"Retaliation {d.attackDiceCount}{label d.attackDie}: {d.minDamage}-{d.maxDamage} damage"

/-- **A preview**: the value, its combos, what speaks against it, and the blow to
expect. -/
def previewText (p : Preview α) : String :=
  lines <|
    [s!"= {Scalar.text p.result} ({p.diceUsed} dice, {p.operatorsUsed} operators)"]
    ++ p.combos.summary?.toList
    ++ (p.violation.map fun v => s!"Rejected: {v.message}").toList
    ++ (p.immunity.map BossAbility.fullWarning).toList
    ++ (p.damage.map retaliationLine).toList

/-- **The end of a run**: how far it went, and what was counted. -/
def summaryText (progress : Progress α) : String :=
  let t := progress.tally
  lines ["",
    s!"Run over on floor {progress.floor} (act {progress.act}). Kills {t.monstersKilled}, "
      ++ s!"exact hits {t.exactHits}, turns {t.turnsPlayed}, gold earned {t.goldEarned}, "
      ++ s!"best combo x{Scalar.text t.bestComboMultiplier}."]

end Console

end Arithmancy
