import Arithmancy.Proofs.Encounter.Verdicts
import Arithmancy.Proofs.Game.OpenEncounter
import Arithmancy.Proofs.Game.Refusal

/-!
# Relics that guard against overkills

A monster that is slain by an overkill strikes once more. Two relics promise that the player is
spared this. The mark keeps its promise always. The ring spares the player when it wraps a
value, that is if the value exceeds the target when the ring sees it; but a value can come to
exceed the target later, when it is multiplied or when relics acquired later shift it, and then
the overkill is answered although the ring is owned.

The main statement, `Game.damageTaken_of_overkill`, says that this is the only way.
-/

namespace Arithmancy

namespace Game

variable {settings : Settings Float} {bestiary : Bestiary} {g : Game Float}

/-- **An overkill is not answered** if the mark is owned or the ring wraps the value, in every
game that is reached. Otherwise the player takes the strike of the monster, softened by relics.
That can happen to the owner of the ring: the value that the ring finds does not exceed the
target, and either the value is multiplied, or a relic acquired later shifts it. -/
theorem damageTaken_of_overkill (hnew : Game.new settings bestiary = .ok g)
    (moves : List (Move Float)) {s : Session Float} (hs : (g.after moves).session = some s)
    {r : Resolution Float} (hr : (g.after moves).submit.answer = .ok r)
    (hover : r.outcome.isOverkill = true) :
    let relics := (g.after moves).run.player.relics
    let v := s.verdict r.rawValue
    (.berserkerMark ∈ relics ∨ Relics.Wraps relics v → r.damageTaken = 0)
      ∧ (.berserkerMark ∉ relics → ¬Relics.Wraps relics v →
        r.damageTaken
            = (soften relics r.strike { s.memo with evaluations := s.memo.evaluations + 1 }).1
        ∧ (.modularRing ∈ relics → ∃ before after, relics = before ++ .modularRing :: after
          ∧ ¬s.monster.hp < Relics.valueAfter before v
          ∧ (.glassCannon ∈ relics ∨ .decimalLens ∈ after
            ∨ .headStart ∈ after ∧ s.memo.evaluations = 0))) := by
  obtain ⟨t, ht, rfl, -⟩ := exists_turn_of_submit hs hr
  obtain ⟨raw, haccept, rfl⟩ := Session.submit_eq_ok_iff.mp ht
  have hdamage := s.damageTaken_resolve (g.after moves).run (g.after moves).settings.balance raw
  rw [hover, Bool.true_and] at hdamage
  refine ⟨fun hguarded => ?_, fun hmark hwraps => ⟨?_, fun hring => ?_⟩⟩
  · exact hdamage.trans (if_pos (Relics.preventOverkillDamage_adjustAll_iff.mpr hguarded))
  · exact hdamage.trans (if_neg fun hprevent =>
      (Relics.preventOverkillDamage_adjustAll_iff.mp hprevent).elim hmark hwraps)
  · have hbuilding := Session.isOver_eq_false_iff.mp (Session.accept_eq_ok_iff.mp haccept).1
    have htarget : 0 < (s.verdict raw).target :=
      (encounter_agrees hnew moves hs).standing hbuilding
    have hexceeds : (s.verdict raw).target < (s.appraisalOf (g.after moves).run raw).judgedValue :=
      s.lt_of_isOverkill_resolve _ _ raw hover
    exact Relics.exists_ring_of_not_wraps (by decide +kernel) htarget hexceeds hring hmark hwraps

/-- The moves of a player who owns the ring and strikes a rat with four times six. -/
def guardedStrike : List (Move Float) :=
  [.grantRelic .modularRing, .startCombat (.monster "rat"),
    .placeDie ⟨1⟩, .placeOperator 2, .placeDie ⟨2⟩]

/-- The ring finds 24, which exceeds the ten hit points of the rat: the rat rolls its die in
vain. -/
theorem damageTaken_of_guarded :
    ∃ g s r, Game.new { Settings.standard with seed := 1 } .builtIn = .ok g
      ∧ (g.after guardedStrike).session = some s
      ∧ (g.after guardedStrike).submit.answer = .ok r
      ∧ r.outcome.isOverkill = true ∧ 0 < r.strike ∧ r.damageTaken = 0 := by
  obtain ⟨g, hnew, howned, haccepted, hreport, hexceeds⟩ :
      ∃ g : Game Float, Game.new { Settings.standard with seed := 1 } .builtIn = .ok g
        ∧ (g.after guardedStrike).run.player.relics = [.modularRing]
        ∧ (g.after guardedStrike).submit.answer.isOk = true
        ∧ (∀ r ∈ (g.after guardedStrike).submit.answer.toOption,
          r.outcome.isOverkill = true ∧ 0 < r.strike)
        ∧ ∀ s ∈ (g.after guardedStrike).session,
          ∀ r ∈ (g.after guardedStrike).submit.answer.toOption,
            s.monster.hp < r.rawValue ∧ 0 < s.monster.hp := ⟨_, rfl, by decide +kernel⟩
  obtain ⟨s, r, hs, hr⟩ := exists_report_of_isOk haccepted
  rw [hr] at hreport hexceeds
  obtain ⟨hover, hstrikes⟩ := hreport r rfl
  have hwraps : Relics.Wraps (g.after guardedStrike).run.player.relics (s.verdict r.rawValue) :=
    ⟨[], [], howned, hexceeds s hs r rfl⟩
  exact ⟨g, s, r, hnew, hs, hr, hover, hstrikes,
    (damageTaken_of_overkill hnew guardedStrike hs hr hover).1 (.inr hwraps)⟩

/-- The moves of a player who also owns the cannon, and strikes the same rat with eight. -/
def multipliedStrike : List (Move Float) :=
  [.grantRelic .glassCannon, .grantRelic .modularRing, .startCombat (.monster "rat"),
    .placeDie ⟨1⟩, .placeOperator 0, .placeDie ⟨3⟩]

/-- **An overkill is answered** although the player owns the ring: the ring finds eight, which
does not exceed the ten hit points of the rat, and then eight is multiplied to twelve. -/
theorem overkill_answered :
    ∃ g : Game Float, Game.new { Settings.standard with seed := 1 } .builtIn = .ok g
      ∧ .modularRing ∈ (g.after multipliedStrike).run.player.relics
      ∧ (g.after multipliedStrike).submit.answer.toOption.any
          (fun r => r.outcome.isOverkill && r.damageTaken == 4) = true :=
  ⟨_, rfl, by decide +kernel⟩

end Game

end Arithmancy
