import Arithmancy.Proofs.Encounter.Multipliers
import Arithmancy.Proofs.Game.OpenEncounter

/-!
# The books of a run

A run counts what happens in it, and what it counts can be checked against what it has: the gold
earned against the gold that is there, the monsters killed against the floor that is reached, the
best multiplier against all that were published. The books balance in every game that is reached
(`Game.books_balance`).

What a turn enters into the books is said once (`Run.Balanced.turn`). Encounters that are won
are counted twice, as a monster killed and as a floor climbed, and between the two stands an open
encounter that is won and not yet closed.
-/

namespace Arithmancy

variable {α : Type}

/-! ## Multipliers that are published -/

/-- What combos multiplied gold by in a turn that is reported, if there were any. -/
def CombatEvent.comboMultiplier? : CombatEvent α → Option α
  | .resolved r => if r.combos.isEmpty then none else some r.combos.totalMultiplier
  | _ => none

/-- **What combos multiplied gold by** in the turns that some events report. -/
def comboMultipliers (events : List (Event α)) : List α :=
  (events.filterMap Event.combat?).filterMap CombatEvent.comboMultiplier?

theorem comboMultipliers_turnEvents (before : Player) (t : TurnResult α) :
    comboMultipliers (Game.turnEvents before t)
      = if t.resolution.combos.isEmpty then [] else [t.resolution.combos.totalMultiplier] := by
  rw [comboMultipliers, Game.combat_turnEvents, List.filterMap_cons]
  have hended : (if t.resolution.phase.isOver = true
      then [CombatEvent.ended t.resolution.phase t.resolution.turn] else [] :
        List (CombatEvent α)).filterMap CombatEvent.comboMultiplier? = [] := by
    split <;> rfl
  rw [hended, CombatEvent.comboMultiplier?]
  cases t.resolution.combos.isEmpty <;> rfl

/-- **The best of some multipliers**: the greatest of them, and one if there are none. -/
structure IsBest (best : Float) (multipliers : List Float) : Prop where
  /-- It is one if there are none. -/
  none : multipliers = [] → best = 1
  /-- Otherwise it is one of them. -/
  mem : multipliers ≠ [] → best ∈ multipliers
  /-- None of them is greater. -/
  greatest : ∀ m ∈ multipliers, m ≤ best

open Binary64 (value? lt_iff le_iff value?_ofNat zero_le_zero)

/-- A multiplier above one. -/
def IsMultiplier (m : Float) : Prop := ∃ v, value? m = some v ∧ 1 < v

/-- The best of some multipliers and one more is the greater of the two. -/
theorem IsBest.concat {best m : Float} {multipliers : List Float} (h : IsBest best multipliers)
    (hproper : ∀ m ∈ multipliers, IsMultiplier m) (hm : IsMultiplier m) :
    IsBest (bestMultiplier best m) (multipliers ++ [m]) := by
  obtain ⟨w, hw, habove⟩ := hm
  have hone : value? (1 : Float) = some 1 := value?_ofNat (k := 1) (by decide)
  obtain ⟨v, hv⟩ : ∃ v, value? best = some v := by
    by_cases hnone : multipliers = []
    · exact ⟨1, h.none hnone ▸ hone⟩
    · obtain ⟨v, hv, -⟩ := hproper best (h.mem hnone)
      exact ⟨v, hv⟩
  refine ⟨fun hnil => absurd hnil (List.concat_ne_nil m multipliers), fun _ => ?_,
    fun m' hm' => ?_⟩
  all_goals unfold bestMultiplier
  · by_cases hlt : best < m
    · rw [if_pos hlt]
      exact List.mem_append_right _ (List.mem_singleton.mpr rfl)
    · rw [if_neg hlt]
      refine List.mem_append_left _ (h.mem fun hnil => hlt ?_)
      rw [h.none hnil]
      exact (lt_iff hone hw).mpr habove
  · rcases List.mem_append.mp hm' with hold | hnew
    · obtain ⟨v', hv', -⟩ := hproper m' hold
      have hle := h.greatest m' hold
      by_cases hlt : best < m
      · rw [if_pos hlt]
        exact (le_iff hv' hw).mpr (((le_iff hv' hv).mp hle).trans ((lt_iff hv hw).mp hlt).le)
      · rw [if_neg hlt]
        exact hle
    · obtain rfl := List.mem_singleton.mp hnew
      by_cases hlt : best < m'
      · rw [if_pos hlt]
        exact (le_iff hw hw).mpr (le_refl w)
      · rw [if_neg hlt]
        exact (le_iff hw hv).mpr (not_lt.mp fun hlt' => hlt ((lt_iff hv hw).mpr hlt'))

/-! ## The books of a run -/

/-- **The books of a run balance**, where some multipliers were published. -/
structure Run.Balanced (run : Run Float) (multipliers : List Float) : Prop where
  /-- Gold is what the run started with and what it earned, as far as counters reach. -/
  gold : run.progress.modifiers.startingGold + run.progress.tally.goldEarned ≤ maxCount32 →
    run.player.gold = run.progress.modifiers.startingGold + run.progress.tally.goldEarned
  /-- No relic is owned twice. -/
  relics : run.player.relics.Nodup
  /-- Ten floors make an act. -/
  act : run.progress.act = run.progress.floor / Progress.floorsPerAct + 1
  /-- Exact hits kill. -/
  exact : run.progress.tally.exactHits ≤ run.progress.tally.monstersKilled
  /-- It takes a turn to kill. -/
  killed : run.progress.tally.monstersKilled ≤ run.progress.tally.turnsPlayed
  /-- Combos that were found multiply by more than one. -/
  proper : ∀ m ∈ multipliers, IsMultiplier m
  /-- The best multiplier is the best that was published. -/
  best : IsBest run.progress.tally.bestComboMultiplier multipliers

namespace Run.Balanced

variable {run : Run Float} {multipliers : List Float}

/-- Whatever happens to the player outside a turn, the books balance if gold stays and no
relic is owned twice. -/
theorem of_player (h : run.Balanced multipliers) {p : Player} (hgold : p.gold = run.player.gold)
    (hrelics : p.relics.Nodup) : Run.Balanced { run with player := p } multipliers :=
  ⟨fun hle => hgold.trans (h.gold hle), hrelics, h.act, h.exact, h.killed, h.proper, h.best⟩

/-- **What a report says is entered into the books.** -/
theorem enter (h : run.Balanced multipliers) {run' : Run Float} {r : Resolution Float}
    (hprogress : run'.progress = { run.progress with tally := run.progress.tally.after r })
    (hgold : run'.player.gold = min (run.player.gold + r.goldEarned) maxCount32)
    (hrelics : run'.player.relics.Nodup)
    (hexact : r.outcome.isExact = true → r.monsterDead = true)
    (hcombos : r.combos.isEmpty = false → IsMultiplier r.combos.totalMultiplier) :
    run'.Balanced
      (multipliers ++ if r.combos.isEmpty then [] else [r.combos.totalMultiplier]) := by
  obtain ⟨p, progress⟩ := run'
  obtain rfl : progress = { run.progress with tally := run.progress.tally.after r } := hprogress
  refine ⟨fun hle => ?_, hrelics, h.act, ?_, ?_, fun m hm => ?_, ?_⟩
  · change run.progress.modifiers.startingGold
      + (run.progress.tally.goldEarned + r.goldEarned) ≤ maxCount32 at hle
    rw [hgold, h.gold (by omega), Nat.add_assoc]
    exact Nat.min_eq_left hle
  · have hle := h.exact
    show (if r.outcome.isExact = true then _ else _) ≤ if r.monsterDead = true then _ else _
    split
    · next hhit =>
      rw [if_pos (hexact hhit)]
      exact Nat.succ_le_succ hle
    · split
      · exact Nat.le_succ_of_le hle
      · exact hle
  · have hle := h.killed
    show (if r.monsterDead = true then _ else _) ≤ _ + 1
    split
    · exact Nat.succ_le_succ hle
    · exact Nat.le_succ_of_le hle
  · rcases List.mem_append.mp hm with hold | hnew
    · exact h.proper m hold
    · split at hnew
      · exact absurd hnew List.not_mem_nil
      · next hnonempty =>
        exact List.mem_singleton.mp hnew ▸ hcombos (Bool.eq_false_iff.mpr hnonempty)
  · show IsBest (if r.combos.isEmpty = true then _ else _) _
    split
    · rw [List.append_nil]
      exact h.best
    · next hnonempty => exact h.best.concat h.proper (hcombos (Bool.eq_false_iff.mpr hnonempty))

/-- **A turn is entered into the books.** -/
theorem turn (h : run.Balanced multipliers) (s : Session Float) (balance : Balance Float)
    (raw : Float) :
    (s.resolve run balance raw).run.Balanced
      (multipliers ++ comboMultipliers
        (Game.turnEvents run.player (s.resolve run balance raw))) := by
  rw [comboMultipliers_turnEvents]
  refine h.enter (s.progress_resolve run balance raw) (s.gold_resolve run balance raw)
    ?_ (fun hhit => ?_) (fun hnonempty => ?_)
  · rw [s.relics_resolve run balance raw]
    exact Player.nodup_relicsWithout h.relics _
  · exact s.monsterDead_of_isLethal run balance raw zero_le_zero
      (Outcome.isLethal_of_isExact hhit)
  · exact ComboReport.exists_totalMultiplier hnonempty

end Run.Balanced

/-! ## Histories -/

namespace Game

/-- Whether an encounter is won and not yet closed, as a number of encounters. -/
def unclosedVictories (g : Game α) : Nat :=
  g.session.elim 0 fun s => if s.phase = .victory then 1 else 0

/-- **The books of a game balance**, where some multipliers were published. -/
structure Balanced (g : Game Float) (multipliers : List Float) : Prop extends
    g.run.Balanced multipliers where
  /-- Hit points are within their limit. -/
  health : g.run.player.hp ≤ g.run.player.maxHp
  /-- Unless the player gave up, every monster that was killed is a floor that was climbed, or
  that is yet to be. -/
  kills : g.abandoned = false →
    g.run.progress.tally.monstersKilled = g.run.progress.floor + g.unclosedVictories

/-- **A turn keeps the books balanced.** -/
theorem Balanced.turn {g : Game Float} {multipliers : List Float} (h : g.Balanced multipliers)
    {s : Session Float} (hs : g.session = some s) (hover : s.isOver = false)
    (balance : Balance Float) (raw : Float)
    (hhealth : (s.resolve g.run balance raw).run.player.hp
      ≤ (s.resolve g.run balance raw).run.player.maxHp) :
    Balanced { g with
        session := some (s.resolve g.run balance raw).session
        run := (s.resolve g.run balance raw).run }
      (multipliers ++ comboMultipliers
        (turnEvents g.run.player (s.resolve g.run balance raw))) := by
  refine ⟨h.toBalanced.turn s balance raw, hhealth, fun hplays => ?_⟩
  have hbefore := h.kills hplays
  rw [unclosedVictories, hs] at hbefore
  have hphase : s.phase ≠ .victory := by
    rw [Session.isOver_eq_false_iff.mp hover]
    decide
  rw [Option.elim_some, if_neg hphase] at hbefore
  show (s.resolve g.run balance raw).run.progress.tally.monstersKilled
    = (s.resolve g.run balance raw).run.progress.floor
      + if (s.resolve g.run balance raw).session.phase = .victory then 1 else 0
  rw [s.progress_resolve g.run balance raw]
  have hvictory : (s.resolve g.run balance raw).session.phase = .victory
    ↔ (s.resolve g.run balance raw).resolution.monsterDead = true := Session.victory_resolve_iff
  generalize (s.resolve g.run balance raw).resolution = r at hvictory ⊢
  show (if r.monsterDead = true then g.run.progress.tally.monstersKilled + 1
    else g.run.progress.tally.monstersKilled) = _
  rw [if_congr hvictory.symm rfl rfl, hbefore]
  split <;> rfl

end Game

end Arithmancy
