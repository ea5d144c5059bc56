import Arithmancy.Proofs.Encounter.Foresight
import Arithmancy.Proofs.Encounter.Verdicts
import Arithmancy.Proofs.Game.OpenEncounter
import Arithmancy.Proofs.Game.Refusal
import Arithmancy.Proofs.Relic.Shield

/-!
# The first hit of an encounter

The shield leaves nothing of the first hit in each encounter. Whether it is used is remembered with
the encounter, and what is remembered there passes through every turn and every other deed. It
would be of no use if a deed lost it, so that the shield would take a second hit; and it would be
as wrong if an encounter began with what the last one left, or if a turn in which the monster does
not strike used the shield.

Which turns were resolved in an encounter, and what the monster rolled in them, is told by the
events since its start (`turnReports`). In every game in which the shield is owned it is used
exactly if one of these turns has a strike (`Game.Shielded`). The main statement,
`Game.shield_absorbs_first_hit`, draws the conclusions for the turn that comes next: until then the
player takes no damage, and from then on what the same submission would cost a player with the same
relics except for the shield, with the same rolls.
-/

namespace Arithmancy

/-! ## Without the shield -/

section

variable {α : Type}

/-- A run whose player has all relics but the shield. -/
def Run.withoutShield (run : Run α) : Run α :=
  { run with player := run.player.removeRelic .rubberShield }

/-- A game whose player has all relics but the shield. -/
def Game.withoutShield (g : Game α) : Game α := { g with run := g.run.withoutShield }

/-- Whether the monster struck in a turn. -/
def Resolution.hasStrike (r : Resolution α) : Bool := !r.attackRolls.isEmpty

theorem Resolution.hasStrike_eq_false_iff {r : Resolution α} :
    r.hasStrike = false ↔ r.attackRolls = [] := by
  rw [hasStrike, Bool.not_eq_false', List.isEmpty_iff]

theorem Resolution.hasStrike_iff {r : Resolution α} : r.hasStrike = true ↔ r.attackRolls ≠ [] := by
  rw [ne_eq, ← hasStrike_eq_false_iff, Bool.not_eq_false]

end

/-! ## Turns -/

section

variable {α : Type} [Scalar α]

/-- **Once the shield is used** the monster answers as if it were not there. -/
theorem Judgement.retaliation_withoutShield {memo : RelicMemo} (h : memo.shieldUsed = true)
    (j : Judgement α) (m : Monster α) (relics : List Relic) (g : Generator α) :
    j.retaliation m (Relics.withoutShield relics) memo g = j.retaliation m relics memo g := by
  unfold retaliation
  simp only [soften_of_used h]

/-- The dice of the monster are rolled if the outcome is answered. -/
theorem Judgement.rolls_retaliation (j : Judgement α) (m : Monster α) (relics : List Relic)
    (memo : RelicMemo) (g : Generator α) :
    (j.retaliation m relics memo g).rolls
      = if j.outcome.retaliate then (m.rollAttack g).1 else [] := by
  unfold retaliation
  dsimp only
  split <;> rfl

namespace Session

/-- A turn is judged without asking the shield. -/
theorem judge_withoutShield (s : Session α) (relics : List Relic) (rules : DamageRules α)
    (raw : α) : s.judge (Relics.withoutShield relics) rules raw = s.judge relics rules raw := by
  have hadjust := Relics.adjustAll_withoutShield relics (s.verdict raw)
  unfold judge Relics.onEvaluate
  rw [Relics.adjustAll_withHook, Relics.adjustAll_withHook, hadjust]

theorem retaliationOf_withoutShield {s : Session α} (h : s.memo.shieldUsed = true)
    (run : Run α) (balance : Balance α) (raw : α) :
    s.retaliationOf run.withoutShield balance raw = s.retaliationOf run balance raw := by
  have hrelics : run.withoutShield.player.relics = Relics.withoutShield run.player.relics := rfl
  have hrules : rulesOf run.withoutShield balance = rulesOf run balance := rfl
  unfold retaliationOf judgementOf
  rw [hrelics, hrules, judge_withoutShield]
  have hused : (s.judge run.player.relics (rulesOf run balance) raw).2.shieldUsed = true := h
  exact Judgement.retaliation_withoutShield hused _ _ _ _

end Session

end

namespace Session

variable (s : Session Float) (run : Run Float) (balance : Balance Float) (raw : Float)

/-- **A strike shows something** if the monster struck at all: no die shows zero. -/
theorem strike_pos_iff :
    0 < (s.resolve run balance raw).resolution.strike
      ↔ (s.resolve run balance raw).resolution.hasStrike = true := by
  have hrolls : (s.resolve run balance raw).resolution.attackRolls
      = if (s.judgementOf run balance raw).outcome.retaliate
        then (s.monster.rollAttack s.generator).1 else [] :=
    Judgement.rolls_retaliation _ _ run.player.relics
      (s.judge run.player.relics (rulesOf run balance) raw).2 _
  rw [Resolution.hasStrike_iff, Resolution.strike, hrolls, ← List.sum_eq_foldl,
    ← List.length_pos_iff]
  split
  · have hfaces := s.monster.forall₂_rollAttack s.generator
    have hlength := hfaces.length_eq
    have hbounds := total_bounds hfaces
    rw [hlength] at hbounds
    refine ⟨fun hpos => Nat.pos_of_ne_zero fun hzero => ?_, fun hpos => by omega⟩
    rw [hzero, Nat.zero_mul] at hbounds
    omega
  · decide

/-- **The shield is used** by the first turn in which the monster strikes, and stays so. -/
theorem shieldUsed_resolve (howned : .rubberShield ∈ run.player.relics) :
    (s.resolve run balance raw).session.memo.shieldUsed
      = (s.memo.shieldUsed || (s.resolve run balance raw).resolution.hasStrike) := by
  rw [memo_resolve]
  refine (shieldUsed_soften howned _ _).trans ?_
  rw [Bool.eq_iff_iff, Bool.or_eq_true, Bool.or_eq_true, decide_eq_true_iff]
  exact or_congr Iff.rfl (s.strike_pos_iff run balance raw)

/-- **A turn with a shield that is not used** takes nothing from the player. -/
theorem damageTaken_of_unused (howned : .rubberShield ∈ run.player.relics)
    (h : s.memo.shieldUsed = false) :
    (s.resolve run balance raw).resolution.damageTaken = 0 := by
  have hmemo : ({ s.memo with evaluations := s.memo.evaluations + 1 } : RelicMemo).shieldUsed
      = false := h
  rw [damageTaken_resolve, soften_of_unused howned hmemo]
  exact ite_self 0

end Session

/-! ## Histories -/

namespace Game

/-- **The shield is in order**: it is owned, and it is used in the open encounter exactly if the
monster struck in one of the turns that were resolved there. -/
structure Shielded (g : Game Float) (events : List (Event Float)) : Prop where
  /-- The shield is owned. -/
  owned : .rubberShield ∈ g.run.player.relics
  /-- It is used if there was a strike, and only then. -/
  used : ∀ s, g.session = some s →
    s.memo.shieldUsed = (turnReports events).any Resolution.hasStrike

/-- **Every move leaves the shield in order.** -/
theorem Shielded.of_course {g g' : Game Float} {m : Move Float} {refused : Bool}
    {events events' : List (Event Float)} (h : g.Shielded events)
    (hcourse : g.Course m refused g' events') : g'.Shielded (events ++ events') := by
  cases hcourse with
  | refused hevents => exact ⟨h.owned, by rw [turnReports_refusal events hevents]; exact h.used⟩
  | look => exact ⟨h.owned, by rw [List.append_nil]; exact h.used⟩
  | acquire hp =>
    obtain ⟨-, -, hrelics⟩ := Player.of_addRelic hp
    refine ⟨hrelics ▸ List.mem_append_left _ h.owned, ?_⟩
    rw [turnReports_append]
    exact h.used
  | win _ _ | lose _ _ | giveUp => exact ⟨h.owned, fun _ hs => nomatch hs⟩
  | start _ _ hs =>
    obtain ⟨_, _, _, -, -, rfl⟩ := Session.exists_of_start hs
    refine ⟨h.owned, fun s' hs' => ?_⟩
    rw [turnReports_append]
    exact Option.some.inj hs' ▸ rfl
  | @turn s _ hs ht =>
    obtain ⟨raw, -, rfl⟩ := Session.submit_eq_ok_iff.mp ht
    refine ⟨(s.mem_relics_resolve _ _ raw (by decide)).mpr h.owned, fun s' hs' => ?_⟩
    rw [← Option.some.inj hs', s.shieldUsed_resolve _ _ raw h.owned, turnReports_turnEvents,
      List.any_append, h.used s hs]
    exact congrArg _ (Bool.or_false _).symm
  | @deed _ d s c hm hturn hs hd =>
    obtain ⟨howned, hmemo⟩ : .rubberShield ∈ c.player.relics ∧ c.session.memo = s.memo := by
      cases Scene.becomes_of_perform? hd with
      | edit _ _ | target _ => exact ⟨h.owned, rfl⟩
      | reroll _ => exact ⟨(Player.relics_onReroll _).symm ▸ h.owned, rfl⟩
      | turn _ => exact absurd rfl hturn
      | acquire _ => exact absurd hm (Move.deed?_ne_acquire _ _)
    refine ⟨howned, fun s' hs' => ?_⟩
    rw [← Option.some.inj hs', hmemo, turnReports_announcement]
    exact h.used s hs

/-- **Where the shield is used**, the same submission of a player without the shield meets the same
rolls and costs the same. -/
theorem exists_submit_withoutShield {g : Game Float} {s : Session Float} {r : Resolution Float}
    (hs : g.session = some s) (hr : g.submit.answer = .ok r) (hused : s.memo.shieldUsed = true) :
    ∃ r', g.withoutShield.submit.answer = .ok r' ∧ r'.attackRolls = r.attackRolls
      ∧ r'.damageTaken = r.damageTaken := by
  obtain ⟨t, ht, rfl, -⟩ := exists_turn_of_submit hs hr
  obtain ⟨raw, haccept, rfl⟩ := Session.submit_eq_ok_iff.mp ht
  have hsubmit : s.submit g.run.withoutShield g.settings.balance
      = .ok (s.resolve g.run.withoutShield g.settings.balance raw) :=
    Session.submit_eq_ok_iff.mpr ⟨raw, haccept, rfl⟩
  have hanswer := Session.retaliationOf_withoutShield hused g.run g.settings.balance raw
  have hreport := congrArg Step.answer (submit_of_ok (g := g.withoutShield) hs hsubmit)
  exact ⟨_, hreport, congrArg Retaliation.rolls hanswer, congrArg Retaliation.damage hanswer⟩

variable {g : Game Float}

/-- **The shield absorbs the first hit of each encounter**, and no other. If the shield is owned
when no encounter is open, then after any moves: as long as the monster has not struck in the open
encounter, a turn takes nothing from the player; once it has, a turn takes what it would take from
a player with all relics but the shield, with the same rolls; and when an encounter starts, the
shield is still owned, and it is not used. -/
theorem shield_absorbs_first_hit (hclosed : g.session = none)
    (howned : .rubberShield ∈ g.run.player.relics) (moves : List (Move Float)) :
    (∀ r, (g.after moves).submit.answer = .ok r →
        ((∀ q ∈ turnReports (g.eventsOf moves), q.attackRolls = []) → r.damageTaken = 0)
        ∧ ((∃ q ∈ turnReports (g.eventsOf moves), q.attackRolls ≠ []) →
          ∃ r', (g.after moves).withoutShield.submit.answer = .ok r'
            ∧ r'.attackRolls = r.attackRolls ∧ r'.damageTaken = r.damageTaken))
      ∧ ∀ challenge s, ((g.after moves).startCombat challenge).answer = .ok s →
        .rubberShield ∈ (g.after moves).run.player.relics ∧ s.memo.shieldUsed = false := by
  have hshielded : (g.after moves).Shielded (g.eventsOf moves) := by
    refine history_induction (P := Shielded) ⟨howned, fun s hs => ?_⟩
      (fun _ _ _ _ _ _ => Shielded.of_course) moves
    rw [hclosed] at hs
    cases hs
  refine ⟨fun r hr => ?_, fun challenge s hs => ⟨hshielded.owned, ?_⟩⟩
  · obtain ⟨s, -, hs, -⟩ := exists_report_of_isOk (g := g.after moves) (by rw [hr]; rfl)
    have hused := hshielded.used s hs
    constructor
    · intro hnone
      obtain ⟨t, ht, rfl, -⟩ := exists_turn_of_submit hs hr
      obtain ⟨raw, -, rfl⟩ := Session.submit_eq_ok_iff.mp ht
      refine s.damageTaken_of_unused _ _ raw hshielded.owned (hused.trans ?_)
      exact List.any_eq_false.mpr fun q hq => by
        rw [Resolution.hasStrike_eq_false_iff.mpr (hnone q hq)]; decide
    · rintro ⟨q, hq, hstrike⟩
      refine exists_submit_withoutShield hs hr (hused.trans ?_)
      exact List.any_eq_true.mpr ⟨q, hq, Resolution.hasStrike_iff.mpr hstrike⟩
  · obtain ⟨_, _, _, -, -, rfl⟩ := Session.exists_of_start (start_of_startCombat hs).1
    rfl

/-- The moves of a player who acquires the three relics that take part in hits. -/
def hitRelics : List (Move Float) :=
  [.grantRelic .rubberShield, .grantRelic .doubleOrNothing, .grantRelic .thickSkin]

/-- The moves of a player who strikes a rat twice and is about to do so again. -/
def threeStrikes : List (Move Float) :=
  [.startCombat (.monster "rat"), .placeDie ⟨0⟩, .submit, .placeDie ⟨3⟩, .submit, .placeDie ⟨0⟩]

/-- The rat rolls four in the first turn and takes nothing from the player. In the third turn it
rolls three, which is doubled, and two points are taken off. -/
theorem shield_absorbs_first_hit_rat :
    ∃ g, Game.new .standard .builtIn = .ok g
      ∧ (g.after hitRelics).session = none
      ∧ .rubberShield ∈ (g.after hitRelics).run.player.relics
      ∧ (∃ r, ((g.after hitRelics).after (threeStrikes.take 2)).submit.answer = .ok r
        ∧ r.attackRolls = [4] ∧ r.damageTaken = 0)
      ∧ ∃ r, ((g.after hitRelics).after threeStrikes).withoutShield.submit.answer = .ok r
        ∧ r.attackRolls = [3] ∧ r.damageTaken = 4 := by
  obtain ⟨g, hnew, hclosed, howned, ⟨hfirst, hrolls, hnone⟩, hthird, hrolls', hstruck⟩ :
      ∃ g, Game.new .standard .builtIn = .ok g
        ∧ (g.after hitRelics).session = none
        ∧ .rubberShield ∈ (g.after hitRelics).run.player.relics
        ∧ (((g.after hitRelics).after (threeStrikes.take 2)).submit.answer.isOk = true
          ∧ (∀ r ∈ ((g.after hitRelics).after (threeStrikes.take 2)).submit.answer.toOption,
            r.attackRolls = [4])
          ∧ ∀ q ∈ turnReports ((g.after hitRelics).eventsOf (threeStrikes.take 2)),
            q.attackRolls = [])
        ∧ ((g.after hitRelics).after threeStrikes).submit.answer.isOk = true
        ∧ (∀ r ∈ ((g.after hitRelics).after threeStrikes).submit.answer.toOption,
          r.attackRolls = [3] ∧ r.damageTaken = 4)
        ∧ ∃ q ∈ turnReports ((g.after hitRelics).eventsOf threeStrikes), q.attackRolls ≠ [] :=
    ⟨_, rfl, by decide +kernel⟩
  obtain ⟨-, r, -, hr⟩ := exists_report_of_isOk hfirst
  obtain ⟨-, r', -, hr'⟩ := exists_report_of_isOk hthird
  obtain ⟨hdone, hhurt⟩ := hrolls' r' (by rw [hr']; rfl)
  obtain ⟨hspared, -⟩ := (shield_absorbs_first_hit hclosed howned _).1 r hr
  obtain ⟨-, hlater⟩ := (shield_absorbs_first_hit hclosed howned _).1 r' hr'
  obtain ⟨r'', hr'', hsame, hcost⟩ := hlater hstruck
  exact ⟨g, hnew, hclosed, howned, ⟨r, hr, hrolls r (by rw [hr]; rfl), hspared hnone⟩,
    r'', hr'', hsame.trans hdone, hcost.trans hhurt⟩

end Game

end Arithmancy
