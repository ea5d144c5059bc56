import Arithmancy.Proofs.Encounter.Verdicts
import Arithmancy.Proofs.Game.RandomStream

/-!
# Rewards for exact hits

One relic raises the limit of hit points for an exact hit. It does so in its turn among the
relics, for the value that it finds, and cannot know how the turn will be judged. So it may
reward what is no exact hit: the value may have been wrapped onto the target, relics acquired
later may carry it away from there, a condition may block it, or the boss may be immune. In the
same way it may miss a hit to which later relics lead.

The main statement, `Game.maxHp_after_submit`, says by what the reward is decided and by what
the outcome, and that the two agree when none of this happens.
-/

namespace Arithmancy

namespace Session

variable {s : Session Float} {run : Run Float} {before after : List Relic}

/-- **The limit of hit points is raised by two** if the relic that rewards hits finds one. -/
theorem maxHp_resolve_of_owned (howned : run.player.relics = before ++ .perfectionist :: after)
    (hnodup : run.player.relics.Nodup) (balance : Balance Float) (raw : Float) :
    (s.resolve run balance raw).run.player.maxHp
      = if (s.verdict raw).Hits (Relics.valueAfter before (s.verdict raw))
        then min (run.player.maxHp + 2) maxCount32 else run.player.maxHp := by
  rw [howned] at hnodup
  rw [maxHp_resolve, howned, Relics.raises_adjustAll hnodup]
  split <;> rfl

end Session

namespace Game

/-- **The limit of hit points is raised for the value that a relic finds**, and not for the
outcome of the turn. In every game that is reached, a turn raises it by two, as far as counters
reach, if the value that the relics acquired before have made of the result hits the target, and
otherwise leaves it alone. But the turn is an exact hit if the value that all relics have made
of the result hits the target, or the value that was wrapped, if one was; and the boss must not
be immune, and no condition must ask for more. The two agree if the boss is not immune, no
condition asks for more, no value was wrapped before, no relic multiplies the value, and none
acquired later shifts it. -/
theorem maxHp_after_submit {g : Game Float} (h : g.Reached) {s : Session Float}
    (hs : g.session = some s) {r : Resolution Float} (hr : g.submit.answer = .ok r)
    {before after : List Relic}
    (howned : g.run.player.relics = before ++ .perfectionist :: after) :
    let v := s.verdict r.rawValue
    let raised := min (g.run.player.maxHp + 2) maxCount32
    (g.submit.game.run.player.maxHp
        = if v.Hits (Relics.valueAfter before v) then raised else g.run.player.maxHp)
      ∧ (r.outcome.isExact = true
        ↔ v.Hits (s.appraisalOf g.run r.rawValue).judgedValue
          ∧ s.immunity? r.rawValue = none ∧ .mustOverkill ∉ s.conditions)
      ∧ (s.immunity? r.rawValue = none → .mustOverkill ∉ s.conditions →
        ¬Relics.Wraps before v →
        .berserkerMark ∉ g.run.player.relics → .glassCannon ∉ g.run.player.relics →
        .decimalLens ∉ after → (.headStart ∈ after → s.memo.evaluations ≠ 0) →
        g.submit.game.run.player.maxHp
          = if r.outcome.isExact then raised else g.run.player.maxHp) := by
  obtain ⟨t, ht, rfl, hgame⟩ := exists_turn_of_submit hs hr
  obtain ⟨raw, -, rfl⟩ := Session.submit_eq_ok_iff.mp ht
  rw [hgame]
  have hraised := Session.maxHp_resolve_of_owned (s := s) howned h.equipped.relics
    g.settings.balance raw
  have hexact := s.isExact_resolve_iff g.run g.settings.balance raw
  refine ⟨hraised, hexact, fun himmune hfree hwraps hmark hcannon hlens hstart => ?_⟩
  have hplain := Relic.forall_multiplies_eq_false_iff.mpr ⟨hmark, hcannon⟩
  have hsteady : ∀ q ∈ .perfectionist :: after, q.shifts (s.verdict raw) = false :=
    List.forall_mem_cons.mpr ⟨rfl, Relic.forall_shifts_eq_false_iff.mpr ⟨hlens, hstart⟩⟩
  have hjudged : (s.appraisalOf g.run raw).judgedValue
      = Relics.valueAfter before (s.verdict raw) := by
    rw [howned] at hplain
    rw [Session.appraisalOf, howned]
    exact Relics.judgedValue_eq_valueAfter (by decide +kernel) hwraps hplain hsteady
  rw [hjudged] at hexact
  refine hraised.trans (if_congr ?_ rfl rfl)
  rw [hexact]
  exact ⟨fun hhits => ⟨hhits, himmune, hfree⟩, And.left⟩

/-- The moves of a player who meets a rat with the relic that rewards hits, and makes ten of four
and six. -/
def rewardedStrike : List (Move Float) :=
  [.grantRelic .perfectionist, .startCombat (.monster "rat"),
    .placeDie ⟨1⟩, .placeOperator 0, .placeDie ⟨2⟩]

/-- Ten is what it takes to slay the rat: the hit is exact, and it is rewarded. -/
theorem maxHp_after_exact_hit :
    ∃ g s r, Game.new { Settings.standard with seed := 1 } .builtIn = .ok g
      ∧ (g.after rewardedStrike).session = some s
      ∧ (g.after rewardedStrike).submit.answer = .ok r
      ∧ (g.after rewardedStrike).run.player.relics = [] ++ .perfectionist :: []
      ∧ (g.after rewardedStrike).run.player.maxHp = 80 ∧ r.outcome.isExact = true
      ∧ (g.after rewardedStrike).submit.game.run.player.maxHp = 82 := by
  obtain ⟨g, hnew, howned, hmax, haccepted, hexact, hplain⟩ :
      ∃ g : Game Float, Game.new { Settings.standard with seed := 1 } .builtIn = .ok g
        ∧ (g.after rewardedStrike).run.player.relics = [] ++ .perfectionist :: []
        ∧ (g.after rewardedStrike).run.player.maxHp = 80
        ∧ (g.after rewardedStrike).submit.answer.isOk = true
        ∧ (∀ r ∈ (g.after rewardedStrike).submit.answer.toOption, r.outcome.isExact = true)
        ∧ ∀ s ∈ (g.after rewardedStrike).session, s.conditions = [] ∧ s.monster.boss = none :=
    ⟨_, rfl, by decide +kernel⟩
  obtain ⟨s, r, hs, hr⟩ := exists_report_of_isOk haccepted
  obtain ⟨hfree, hsimple⟩ := hplain s hs
  have hhit := hexact r (by rw [hr]; rfl)
  have himmune : s.immunity? r.rawValue = none := by
    rw [Session.immunity?, hsimple]
    rfl
  have hrewarded := (maxHp_after_submit (.after (.new hnew) rewardedStrike) hs hr howned).2.2
    himmune (by rw [hfree]; decide) Relics.not_wraps_nil
    (by rw [howned]; decide) (by rw [howned]; decide) List.not_mem_nil nofun
  rw [if_pos hhit, hmax] at hrewarded
  exact ⟨g, s, r, hnew, hs, hr, howned, hmax, hhit, hrewarded⟩

/-- The moves of a player who also owns the ring, and strikes the same rat with twenty. -/
def wrappedStrike : List (Move Float) :=
  [.grantRelic .modularRing, .grantRelic .perfectionist, .startCombat (.monster "rat"),
    .placeDie ⟨1⟩, .placeOperator 2, .placeDie ⟨2⟩, .placeOperator 1, .placeDie ⟨3⟩]

/-- **An overkill is rewarded** as if it were an exact hit: twenty is wrapped onto ten. -/
theorem overkill_rewarded :
    ∃ g : Game Float, Game.new { Settings.standard with seed := 1 } .builtIn = .ok g
      ∧ .perfectionist ∈ (g.after wrappedStrike).run.player.relics
      ∧ (g.after wrappedStrike).submit.answer.toOption.any
          (fun r => r.outcome.isOverkill && !r.outcome.isExact) = true
      ∧ (g.after wrappedStrike).run.player.maxHp = 80
      ∧ (g.after wrappedStrike).submit.game.run.player.maxHp = 82 :=
  ⟨_, rfl, by decide +kernel⟩

end Game

end Arithmancy
