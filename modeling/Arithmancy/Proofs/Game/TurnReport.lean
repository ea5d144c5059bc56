import Arithmancy.Number.Exact
import Arithmancy.Proofs.Game.Refusal

/-!
# The report of a turn

The report of a turn tells the hit points that the player is left with, and whether the
player died. The first is read off when everything is done; the second is settled by the
strike, before relics take part in the end of the encounter. So the two disagree if a relic
heals after the strike has killed, which happens only in a victory: both sides die in one
turn, and the player owns the relic that heals after victories. The main statement,
`Game.report_agrees_iff`, says that this is the only case.
-/

namespace Arithmancy

namespace Game

variable {α : Type} [Scalar α] {g : Game α} {r : Resolution α}

/-- **A report** is that of a turn of the open encounter, which is not over. -/
theorem exists_resolve_of_submit (h : g.submit.answer = .ok r) :
    ∃ s raw, g.session = some s ∧ s.isOver = false
      ∧ r = (s.resolve g.run g.settings.balance raw).resolution
      ∧ g.submit.game.run = (s.resolve g.run g.settings.balance raw).run := by
  cases hs : g.session with
  | none =>
    rw [submit, onSession, hs] at h
    cases h
  | some s =>
    obtain ⟨t, hsubmit, rfl, hgame⟩ := exists_turn_of_submit hs h
    obtain ⟨raw, haccept, rfl⟩ := Session.submit_eq_ok_iff.mp hsubmit
    exact ⟨s, raw, rfl, (Session.accept_eq_ok_iff.mp haccept).1, rfl, by rw [hgame]⟩

/-- **The report of a turn agrees with the player**: the hit points it tells are those of
the player after the turn. It tells that the player died exactly if none are left, unless
the monster and the player both died and the player owns the relic that heals after
victories; then it tells that the player died, and some are left. -/
theorem report_agrees_iff (h : g.Reached) (hsubmit : g.submit.answer = .ok r) :
    r.playerHp = g.submit.game.run.player.hp
      ∧ ((r.playerDead = true ↔ g.submit.game.run.player.hp = 0)
        ↔ ¬(r.monsterDead = true ∧ r.playerDead = true
          ∧ .alchemistFlask ∈ g.run.player.relics)) := by
  obtain ⟨s, raw, hs, hover, rfl, hrun⟩ := exists_resolve_of_submit hsubmit
  rw [hrun]
  refine ⟨s.playerHp_resolve _ _ raw, ?_⟩
  have hlives := s.hp_resolve_pos_iff g.settings.balance raw h.vital.within
    (h.vital.alive s hs hover)
  have hdead : (s.resolve g.run g.settings.balance raw).resolution.playerDead = true
      ↔ (s.survivorOf g.run g.settings.balance raw).hp = 0 := by
    rw [Session.playerDead_resolve, Bool.not_eq_true', Player.isAlive_eq_false_iff]
  rw [hdead]
  -- what is left is a matter of who survived the strike
  grind

/-- The moves of a player who owns the relic that heals, and is about to strike a rat. -/
def ratFight : List (Move Rat) :=
  [.grantRelic .alchemistFlask, .startCombat (.monster "rat"), .placeDie ⟨0⟩]

/-- The strike at the rat is reported as it ends. -/
theorem report_agrees_rat :
    ∃ g r, Game.new .standard .builtIn = .ok g
      ∧ (g.after ratFight).submit.answer = .ok r
      ∧ r.playerHp = (g.after ratFight).submit.game.run.player.hp
      ∧ (r.monsterDead = false →
        (r.playerDead = true ↔ (g.after ratFight).submit.game.run.player.hp = 0)) := by
  obtain ⟨g, hnew, haccepted⟩ : ∃ g, Game.new .standard .builtIn = .ok g
      ∧ (g.after ratFight).submit.answer.isOk = true := ⟨_, rfl, by decide +kernel⟩
  cases hsubmit : (g.after ratFight).submit.answer with
  | error fault =>
    rw [hsubmit] at haccepted
    cases haccepted
  | ok r =>
    have hagrees := report_agrees_iff (.after (.new hnew) ratFight) hsubmit
    refine ⟨g, r, hnew, hsubmit, hagrees.1, fun hlives => hagrees.2.mpr ?_⟩
    rw [hlives]
    exact fun h => nomatch h.1

/-- The moves of a player who kills a lich with the last strike and is killed by it. -/
def lichFight : List (Move Float) :=
  [.grantRelic .alchemistFlask, .startCombat (.monster "lich"),
    .placeDie ⟨3⟩, .submit, .placeDie ⟨3⟩, .submit, .placeDie ⟨3⟩, .submit, .placeDie ⟨3⟩, .submit,
    .placeDie ⟨0⟩, .placeOperator 2, .placeDie ⟨4⟩, .placeOperator 0, .placeDie ⟨1⟩]

/-- **A player who is reported dead** is left with three hit points. -/
theorem reported_dead_alive :
    ∃ g : Game Float, Game.new { Settings.standard with seed := 23 } .builtIn = .ok g
      ∧ (g.after lichFight).submit.answer.toOption.any
          (fun r => r.monsterDead && r.playerDead && r.playerHp == 3) = true
      ∧ (g.after lichFight).submit.game.run.player.hp = 3 :=
  ⟨_, rfl, by decide +kernel⟩

end Game

end Arithmancy
