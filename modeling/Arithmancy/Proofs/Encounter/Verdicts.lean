import Arithmancy.Proofs.Encounter.Survival
import Arithmancy.Proofs.Relic.Evaluation

/-!
# How a turn is judged

Two verdicts are passed on the result of a turn. The relics of the player see the value one
after another, and each does what it does on the value that it finds. Then the value that they
have made of it lands somewhere (`DamageRules.Lands`), unless the boss is immune to the result.
This module says what the two come to in a turn: when a hit is exact
(`Session.isExact_resolve_iff`), by how much the limit of hit points is raised
(`Session.maxHp_resolve`), and when an overkill is answered (`Session.damageTaken_resolve`).
-/

namespace Arithmancy

variable {α : Type} [Scalar α]

/-! ## How a value lands -/

namespace DamageRules

variable {rules : DamageRules α} {conditions : List Condition} {result target : α}

/-- Close enough is close enough for every condition but the one that asks for more. -/
theorem gate?_of_isExact (h : rules.isExact result target = true) (condition : Condition) :
    (rules.gate? result target condition).isSome = true ↔ condition = .mustOverkill := by
  cases condition <;> simp [gate?, isOver, h]

/-- **How a value lands**: a condition blocks it; or it is close enough to the target; or beyond
it; or just below it; or none of these, and then it wounds. -/
inductive Lands (rules : DamageRules α) (conditions : List Condition) (result target : α) :
    Outcome α → Prop where
  | blocked {reason : BlockReason α}
      (hblocks : conditions.findSome? (rules.gate? result target) = some reason) :
      Lands rules conditions result target (.blocked reason)
  | exact (hfree : conditions.findSome? (rules.gate? result target) = none)
      (hexact : rules.isExact result target = true) :
      Lands rules conditions result target ⟨target, false, .exact⟩
  | overkill (hexact : rules.isExact result target = false)
      (hover : rules.isOver result target = true) :
      Lands rules conditions result target ⟨target, !conditions.contains .gentle, .overkill⟩
  | nearMiss (hexact : rules.isExact result target = false)
      (hover : rules.isOver result target = false) :
      Lands rules conditions result target ⟨target, true, .nearMiss⟩
  | underkill (hexact : rules.isExact result target = false)
      (hover : rules.isOver result target = false)
      (hfar : rules.isUnder result target = true →
        ¬distance result target ≤ rules.nearMissThreshold) :
      Lands rules conditions result target ⟨wound conditions result, true, .underkill⟩

theorem lands_judge (rules : DamageRules α) (conditions : List Condition) (result target : α) :
    rules.Lands conditions result target (rules.judge conditions result target) := by
  unfold judge
  cases hgate : conditions.findSome? (rules.gate? result target) with
  | some reason => exact .blocked hgate
  | none =>
    dsimp only
    unfold land
    split
    · next hexact => exact .exact hgate hexact
    · next hexact =>
      rw [Bool.not_eq_true] at hexact
      split
      · next hover => exact .overkill hexact hover
      · next hover =>
        rw [Bool.not_eq_true] at hover
        split
        · exact .nearMiss hexact hover
        · next hfar =>
          exact .underkill hexact hover fun hunder hnear =>
            hfar (by rw [hunder, decide_eq_true hnear]; rfl)

/-- **A value is an exact hit** if it is close enough, unless it must exceed the target. -/
theorem isExact_judge_iff :
    (rules.judge conditions result target).isExact = true
      ↔ rules.isExact result target = true ∧ .mustOverkill ∉ conditions := by
  have hlands := rules.lands_judge conditions result target
  generalize rules.judge conditions result target = o at hlands ⊢
  cases hlands with
  | blocked hblocks =>
    obtain ⟨condition, hmem, hcondition⟩ := List.exists_of_findSome?_eq_some hblocks
    refine iff_of_false nofun fun ⟨hexact, hfree⟩ => hfree ?_
    exact (gate?_of_isExact hexact condition).mp (by rw [hcondition]; rfl) ▸ hmem
  | exact hfree hexact =>
    refine iff_of_true rfl ⟨hexact, fun hmem => ?_⟩
    have hblocks := (gate?_of_isExact hexact .mustOverkill).mpr rfl
    rw [List.findSome?_eq_none_iff.mp hfree _ hmem] at hblocks
    cases hblocks
  | overkill hexact _ | nearMiss hexact _ | underkill hexact _ _ =>
    exact iff_of_false nofun fun h => Bool.noConfusion (hexact.symm.trans h.1)

/-- **A value is an overkill** only if it exceeds the target. -/
theorem lt_of_isOverkill_judge (h : (rules.judge conditions result target).isOverkill = true) :
    target < result := by
  have hlands := rules.lands_judge conditions result target
  generalize rules.judge conditions result target = o at h hlands
  cases hlands with
  | overkill _ hover => exact of_decide_eq_true (Bool.and_eq_true_iff.mp hover).1
  | _ => cases h

end DamageRules

namespace Player

/-! ## The limit of hit points -/

/-- **The limit after the effects that relics ask for** is raised by each that raises it, as
far as counters reach. -/
theorem maxHp_affected (p : Player) (effects : List PlayerEffect) :
    (p.affected effects).maxHp
      = (effects.filterMap PlayerEffect.raise?).foldl (fun m n => min (m + n) maxCount32)
        p.maxHp := by
  induction effects generalizing p with
  | nil => rfl
  | cons effect effects ih =>
    rw [affected, List.foldl_cons]
    refine (ih _).trans ?_
    cases effect <;> rfl

end Player

/-! ## A turn -/

/-- What the dice of the monster show together. -/
def Resolution.strike (r : Resolution α) : Nat := r.attackRolls.foldl (· + ·) 0

namespace Session

variable (s : Session α) (run : Run α) (balance : Balance α) (raw : α)

/-- What relics make of a value. -/
def appraisalOf (s : Session α) (run : Run α) (raw : α) : Appraisal α :=
  Relics.appraise (Relics.adjustAll run.player.relics (s.verdict raw))

theorem appraisal_judgementOf :
    (s.judgementOf run balance raw).appraisal = s.appraisalOf run raw :=
  Relics.onEvaluate_fst run.player.relics (s.verdict raw) s.memo

/-- **A turn is judged** by the value that relics made of the result, unless the boss is immune
to the result. -/
theorem outcome_resolve :
    (s.resolve run balance raw).resolution.outcome =
      match s.immunity? raw with
      | some ability => .blocked (.boss ability raw)
      | none => (rulesOf run balance).judge s.conditions (s.appraisalOf run raw).judgedValue
        s.monster.hp := by
  rw [← s.appraisal_judgementOf run balance]
  rfl

/-- **A turn is an exact hit** if the value that relics made of the result hits the target,
unless the boss is immune or the target must be exceeded. -/
theorem isExact_resolve_iff :
    (s.resolve run balance raw).resolution.outcome.isExact = true
      ↔ (s.verdict raw).Hits (s.appraisalOf run raw).judgedValue
        ∧ s.immunity? raw = none ∧ .mustOverkill ∉ s.conditions := by
  rw [outcome_resolve]
  cases s.immunity? raw with
  | some ability => exact iff_of_false nofun fun h => nomatch h.2.1
  | none =>
    refine DamageRules.isExact_judge_iff.trans ?_
    rw [DamageRules.isExact, decide_eq_true_iff]
    exact and_congr_right fun _ => ⟨fun hfree => ⟨rfl, hfree⟩, And.right⟩

/-- **A result that falls short** is judged by the value that relics made of it. -/
theorem outcome_of_isUnderkill_resolve
    (h : (s.resolve run balance raw).resolution.outcome.isUnderkill = true) :
    (s.resolve run balance raw).resolution.outcome
      = (rulesOf run balance).judge s.conditions (s.appraisalOf run raw).judgedValue
        s.monster.hp := by
  rw [outcome_resolve] at h ⊢
  cases himmune : s.immunity? raw with
  | some ability =>
    rw [himmune] at h
    cases h
  | none => rfl

/-- **A turn is an overkill** only if the value that relics made of the result exceeds the
target. -/
theorem lt_of_isOverkill_resolve
    (h : (s.resolve run balance raw).resolution.outcome.isOverkill = true) :
    s.monster.hp < (s.appraisalOf run raw).judgedValue := by
  rw [outcome_resolve] at h
  cases himmune : s.immunity? raw with
  | some ability =>
    rw [himmune] at h
    cases h
  | none =>
    rw [himmune] at h
    exact DamageRules.lt_of_isOverkill_judge h

/-- **The limit of hit points after a turn** is raised by what relics ask for, and by nothing
else. -/
theorem maxHp_resolve :
    (s.resolve run balance raw).run.player.maxHp
      = ((Relics.adjustAll run.player.relics (s.verdict raw)).effects.filterMap
          PlayerEffect.raise?).foldl (fun m n => min (m + n) maxCount32) run.player.maxHp := by
  have hend : ∀ r victory p, (Relic.onCombatEnd r victory p).maxHp = p.maxHp :=
    fun r victory p => by cases r <;> cases victory <;> rfl
  rw [player_resolve, Player.onCombatEnd_keeps Player.maxHp hend]
  show (s.survivorOf run balance raw).maxHp = _
  rw [survivorOf, Player.maxHp_suffer, Player.maxHp_affected, appraisal_judgementOf]
  rfl

/-- **The damage of a turn**: none if the outcome is an overkill and relics keep it from being
answered, and otherwise what relics leave of the strike. -/
theorem damageTaken_resolve :
    (s.resolve run balance raw).resolution.damageTaken
      = if (s.resolve run balance raw).resolution.outcome.isOverkill
          && (Relics.adjustAll run.player.relics (s.verdict raw)).preventOverkillDamage then 0
        else (soften run.player.relics (s.resolve run balance raw).resolution.strike
          { s.memo with evaluations := s.memo.evaluations + 1 }).1 := by
  have hprevent : (s.judgementOf run balance raw).appraisal.preventOverkillDamage
      = (Relics.adjustAll run.player.relics (s.verdict raw)).preventOverkillDamage :=
    congrArg Appraisal.preventOverkillDamage (s.appraisal_judgementOf run balance raw)
  rw [← hprevent]
  rfl

end Session

end Arithmancy
