import Arithmancy.Proofs.Encounter.Verdicts
import Arithmancy.Proofs.Game.Independence
import Arithmancy.Proofs.Game.MonsterHealth

/-!
# Outcomes that kill

Numbers are read exactly here, whatever roots, logarithms and powers are. Whether a monster dies
is settled twice: an outcome is lethal by its kind, and a monster is dead if nothing is left of
it. The two agree except where a result falls short and still wounds by all that there is. Such
a wound is the result rounded up, which never reaches a number to hit that is more than one
away; or it is twice the result, rounded up, under the condition that doubles damage.

The main statement, `Game.monsterDead_iff`, says that these are the only exceptions. It rests on
the fact that a monster has hit points left as long as it is not dead (`Game.Reached.standing`).
-/

namespace Arithmancy

/-! ## Results that fall short -/

namespace Exact

/-- What is left of an amount is rounded up to nothing if at least the amount is taken away. -/
theorem ceil_sub_positivePart_le_zero_iff [Operations] {x : Rat} (h : 0 < x) (d : Rat) :
    (Scalar.ceil (x - Scalar.positivePart d) : Rat) ≤ 0 ↔ x ≤ d := by
  rw [positivePart_eq]
  show ((x - max d 0).ceil : Rat) ≤ 0 ↔ _
  have hceil : ((x - max d 0).ceil : Rat) ≤ 0 ↔ x - max d 0 ≤ ((0 : Int) : Rat) := by
    rw [← Rat.ceil_le_iff]
    exact_mod_cast Iff.rfl
  rw [hceil, Int.cast_zero, sub_nonpos, le_max_iff]
  exact or_iff_left (not_le.mpr h)

end Exact

namespace DamageRules

variable [Exact.Operations] {rules : DamageRules Rat} {conditions : List Condition}
  {result target : Rat}

/-- **A value that falls short** lies below the target by more than near misses may. -/
theorem shortfall_of_isUnderkill_judge (htolerance : 0 < rules.exactTolerance)
    (h : (rules.judge conditions result target).isUnderkill = true) :
    result < target ∧ rules.nearMissThreshold < target - result
      ∧ (rules.judge conditions result target).dealt = wound conditions result := by
  have hlands := rules.lands_judge conditions result target
  generalize rules.judge conditions result target = o at h hlands ⊢
  cases hlands with
  | underkill hexact hover hfar =>
    have hdistance : distance result target = |result - target| := Exact.abs_eq _
    have hbelow : result < target := by
      refine lt_of_le_of_ne (le_of_isOver_eq_false hexact hover) fun heq => ?_
      rw [isExact, hdistance, heq, sub_self, abs_zero, decide_eq_false_iff_not] at hexact
      exact hexact htolerance
    have hnear := hfar (by rw [isUnder, hexact, decide_eq_true hbelow]; rfl)
    rw [hdistance, abs_sub_comm, abs_of_pos (sub_pos.mpr hbelow), not_le] at hnear
    exact ⟨hbelow, hnear, rfl⟩
  | _ => cases h

/-- **A wound that is not doubled** is less than a target that is more than one away. -/
theorem wound_lt (hcannon : .glassCannon ∉ conditions) (h : 1 < target - result) :
    wound conditions result < target := by
  have hceil := Rat.ceil_lt (x := result)
  rw [wound_eq_ceil hcannon]
  linarith

end DamageRules

/-- With the standard amounts near misses may be one below the target, on every level. -/
theorem Modifiers.one_le_nearMissThreshold_standard [Exact.Operations] (level : Nat) :
    1 ≤ (forLevel level (.standard : Balance Rat)).nearMissThreshold := by
  show (1 : Rat) ≤ if 1 ≤ level then 3 - 1 else 3
  split <;> norm_num

/-- **A monster dies** of a lethal outcome, or of a wound by all its hit points. -/
theorem Judgement.monsterDead_eq_true_iff [Exact.Operations] {j : Judgement Rat}
    (htarget : 0 < j.target) :
    j.monsterDead = true ↔ j.outcome.isLethal = true
      ∨ j.outcome.isUnderkill = true ∧ j.target ≤ j.outcome.dealt := by
  rw [monsterDead, decide_eq_true_iff]
  unfold remainder Outcome.isLethal Outcome.isUnderkill
  cases j.outcome.kind with
  | exact | overkill | nearMiss => exact iff_of_true le_rfl (.inl rfl)
  | underkill =>
    refine (Exact.ceil_sub_positivePart_le_zero_iff htarget j.outcome.dealt).trans ?_
    exact ⟨fun h => .inr ⟨rfl, h⟩, fun h => (h.resolve_left nofun).2⟩
  | blocked _ =>
    refine iff_of_false (not_le.mpr htarget) ?_
    rintro (h | ⟨h, -⟩) <;> cases h

namespace Session

variable [Exact.Operations] (s : Session Rat) (run : Run Rat) (balance : Balance Rat) (raw : Rat)

/-- **A result that falls short** wounds by what relics made of it. -/
theorem shortfall_of_isUnderkill_resolve
    (h : (s.resolve run balance raw).resolution.outcome.isUnderkill = true) :
    (s.appraisalOf run raw).judgedValue < s.monster.hp
      ∧ run.progress.modifiers.nearMissThreshold
        < s.monster.hp - (s.appraisalOf run raw).judgedValue
      ∧ (s.resolve run balance raw).resolution.outcome.dealt
        = DamageRules.wound s.conditions (s.appraisalOf run raw).judgedValue := by
  have houtcome := s.outcome_of_isUnderkill_resolve run balance raw h
  rw [houtcome] at h ⊢
  have htolerance : (0 : Rat) < (rulesOf run balance).exactTolerance := by
    show (0 : Rat) < 0.001
    norm_num
  exact DamageRules.shortfall_of_isUnderkill_judge htolerance h

/-- **A result that falls short leaves something** of the monster, unless damage is doubled or
near misses must be closer than one. -/
theorem dealt_lt_of_isUnderkill_resolve (hcannon : .glassCannon ∉ s.conditions)
    (hthreshold : 1 ≤ run.progress.modifiers.nearMissThreshold)
    (h : (s.resolve run balance raw).resolution.outcome.isUnderkill = true) :
    (s.resolve run balance raw).resolution.outcome.dealt < s.monster.hp := by
  obtain ⟨-, hshort, hdealt⟩ := s.shortfall_of_isUnderkill_resolve run balance raw h
  rw [hdealt]
  exact DamageRules.wound_lt hcannon (lt_of_le_of_lt hthreshold hshort)

end Session

/-! ## Monsters that stand -/

/-- **A monster stands** if it has hit points left, unless the encounter is won. -/
def Monster.Standing (phase : Phase) (m : Monster Rat) : Prop := phase ≠ .victory → 0 < m.hp

/-- A turn leaves the monster standing or wins the encounter. -/
theorem Session.standing_submit [Exact.Operations] {s : Session Rat} {run : Run Rat}
    {balance : Balance Rat} {t : TurnResult Rat} (h : s.submit run balance = .ok t) :
    t.session.monster.Standing t.session.phase := by
  obtain ⟨raw, -, rfl⟩ := submit_eq_ok_iff.mp h
  intro hphase
  have hremainder : 0 < (s.judgementOf run balance raw).remainder := by
    by_contra hnot
    exact hphase (victory_resolve_iff.mpr (decide_eq_true (not_lt.mp hnot)))
  rw [(s.settles_resolve run balance raw).monster]
  show 0 < (s.resolve run balance raw).resolution.monsterHp
  rw [monsterHp_eq_positivePart, Exact.positivePart_eq]
  exact lt_max_of_lt_left hremainder

namespace Game

section

variable [Exact.Operations] {settings : Settings Rat} {bestiary : Bestiary} {g : Game Rat}

/-- **The monster of every open encounter stands**, in every game that is reached. -/
theorem Reached.standing (h : g.Reached) :
    ∀ s, g.session = some s → s.monster.Standing s.phase :=
  h.monster_induction (P := fun phase m => m.Standing phase)
    (fun hs _ => Monster.pos_of_start hs)
    (fun _ ht => Session.standing_submit ht)
    fun floor modifiers generator _ _ => Exact.ofNat_pos
      (Nat.lt_of_lt_of_le (by decide) (Monster.le_scaledHp _ floor modifiers generator))

/-- **A monster dies of lethal outcomes**, and of results that fall short and wound by all its hit
points; whatever the amounts of the game, the ascension and the history, it dies of nothing else.
A result falls short if the value that relics made of it lies below the target by more than near
misses may, and it wounds by that value, rounded up, or by twice the value if damage is doubled. So
where damage is not doubled, and near misses may be one below the target, only lethal outcomes
kill. -/
theorem monsterDead_iff (hnew : Game.new settings bestiary = .ok g) (moves : List (Move Rat))
    {s : Session Rat} (hs : (g.after moves).session = some s) {r : Resolution Rat}
    (hr : (g.after moves).submit.answer = .ok r) :
    let threshold := (Modifiers.forLevel settings.ascension settings.balance).nearMissThreshold
    let value := (s.appraisalOf (g.after moves).run r.rawValue).judgedValue
    (r.monsterDead = true
        ↔ r.outcome.isLethal = true ∨ r.outcome.isUnderkill = true ∧ r.target ≤ r.outcome.dealt)
      ∧ (r.outcome.isUnderkill = true → value < r.target ∧ threshold < r.target - value
        ∧ r.outcome.dealt = DamageRules.wound s.conditions value)
      ∧ (.glassCannon ∉ s.conditions → 1 ≤ threshold →
        (r.monsterDead = true ↔ r.outcome.isLethal = true)) := by
  have hstands := (Reached.after (.new hnew) moves).standing s hs
  have hmodifiers : (g.after moves).run.progress.modifiers
      = Modifiers.forLevel settings.ascension settings.balance :=
    congrArg Outset.modifiers (settled_after hnew moves).outset
  obtain ⟨t, ht, rfl, -⟩ := exists_turn_of_submit hs hr
  obtain ⟨raw, haccept, rfl⟩ := Session.submit_eq_ok_iff.mp ht
  have hbuilding := Session.isOver_eq_false_iff.mp (Session.accept_eq_ok_iff.mp haccept).1
  have htarget : 0 < s.monster.hp := hstands (by rw [hbuilding]; decide)
  have hdead := Judgement.monsterDead_eq_true_iff
    (j := s.judgementOf (g.after moves).run (g.after moves).settings.balance raw) htarget
  refine ⟨hdead, fun hunder => ?_, fun hcannon hthreshold => ?_⟩
  · rw [← hmodifiers]
    exact s.shortfall_of_isUnderkill_resolve _ _ raw hunder
  · rw [← hmodifiers] at hthreshold
    refine hdead.trans (or_iff_left fun h => ?_)
    have hleft := s.dealt_lt_of_isUnderkill_resolve _ _ raw hcannon hthreshold h.1
    exact absurd h.2 (not_le.mpr hleft)

end

/-- The moves of a player who is about to strike a rat with one die. -/
def oneDie : List (Move Rat) := [.startCombat (.monster "rat"), .placeDie ⟨0⟩]

/-- The strike falls short, and the rat survives. -/
theorem monsterDead_iff_of_rat :
    ∃ g s r, Game.new { Settings.standard with seed := 1 } .builtIn = .ok g
      ∧ (g.after oneDie).session = some s
      ∧ (g.after oneDie).submit.answer = .ok r
      ∧ r.outcome.isUnderkill = true ∧ r.monsterDead = false := by
  obtain ⟨g, hnew, haccepted, hshort, hfree⟩ :
      ∃ g : Game Rat, Game.new { Settings.standard with seed := 1 } .builtIn = .ok g
        ∧ (g.after oneDie).submit.answer.isOk = true
        ∧ (∀ r ∈ (g.after oneDie).submit.answer.toOption,
          r.outcome.isUnderkill = true ∧ r.outcome.isLethal = false)
        ∧ ∀ s ∈ (g.after oneDie).session, .glassCannon ∉ s.conditions :=
    ⟨_, rfl, by decide +kernel⟩
  obtain ⟨s, r, hs, hr⟩ := exists_report_of_isOk haccepted
  obtain ⟨hunder, hharmless⟩ := hshort r (by rw [hr]; rfl)
  have hdead := (monsterDead_iff hnew oneDie hs hr).2.2 (hfree s hs)
    (Modifiers.one_le_nearMissThreshold_standard _)
  rw [hharmless] at hdead
  exact ⟨g, s, r, hnew, hs, hr, hunder, Bool.eq_false_iff.mpr fun h => nomatch hdead.mp h⟩

/-- The moves of a player who has slain five rats, one with every strike, and makes six of two
dice against the next one. -/
def ratHunt : List (Move Rat) :=
  let pair : List (Move Rat) := [.placeDie ⟨0⟩, .placeOperator 0, .placeDie ⟨1⟩]
  ([pair, [.placeDie ⟨0⟩], pair, pair, pair].flatMap fun strike =>
      .startCombat (.monster "rat") :: strike ++ [.submit, .finishCombat])
    ++ [.startCombat (.monster "rat"), .placeDie ⟨1⟩, .placeOperator 0, .placeDie ⟨3⟩]

/-- **A result that falls short kills**: damage is doubled, and twice six is more than the eleven
hit points of the rat. -/
theorem underkill_kills :
    ∃ g : Game Rat, Game.new { Settings.standard with seed := 88 } .builtIn = .ok g
      ∧ (g.after ratHunt).session.any (fun s => s.conditions.contains .glassCannon) = true
      ∧ (g.after ratHunt).submit.answer.toOption.any
          (fun r => r.outcome.isUnderkill && !r.outcome.isLethal && r.monsterDead
            && r.rawValue == 6 && r.target == 11) = true :=
  ⟨_, rfl, by decide +kernel⟩

end Game

end Arithmancy
