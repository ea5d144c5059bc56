import Arithmancy.Proofs.Chance.Draws
import Arithmancy.Proofs.Encounter.Tray
import Arithmancy.Proofs.Encounter.Turns

/-!
# What a preview foresees

A preview neither draws nor asks relics, and it is computed apart from the turn it looks
ahead to. Unless a relic takes part in judging a result or in a hit, the two agree
(`Session.preview_foresees_submit`): the preview has the fault of the expression if the
submission has, it names the rule by which the submission is refused, and of a turn that
is resolved it knows the value, the combos and the outcome. The dice of the monster it
cannot know, but their number, and that each shows one of its faces
(`Monster.forall₂_rollAttack`): so it knows between which bounds the damage lies.
-/

namespace Arithmancy

/-! ## Strikes -/

theorem soften_of_idle {relics : List Relic} (hidle : Relics.Idle .takeDamage relics)
    (total : Nat) (memo : RelicMemo) : soften relics total memo = (total, memo) := by
  unfold soften
  rw [Relics.onTakeDamage_of_idle hidle, ite_self]

theorem DieType.sides_pos (t : DieType) : 0 < t.sides := by cases t <;> decide

theorem DieType.sides_le (t : DieType) : t.sides ≤ 2 ^ 21 := by cases t <;> decide

/-- **Every die of a strike shows one of its faces.** -/
theorem Monster.forall₂_rollAttack (m : Monster Float) (g : Generator Float) :
    List.Forall₂ (fun _ n => 1 ≤ n ∧ n ≤ m.attackDie.sides)
      (List.replicate m.attackDiceCount ()) (m.rollAttack g).1 := by
  refine Source.forall₂_mapDraws (fun _ g => ?_) _ g
  have hface := g.nextInt_mem m.attackDie.sides_pos m.attackDie.sides_le
  dsimp only
  omega

/-- Dice that show between one and `sides` show together between their number and their
number times `sides`. -/
theorem total_bounds {β : Type} {sides : Nat} {items : List β} {rolls : List Nat}
    (h : List.Forall₂ (fun _ n => 1 ≤ n ∧ n ≤ sides) items rolls) :
    items.length ≤ rolls.sum ∧ rolls.sum ≤ items.length * sides := by
  induction h with
  | nil => exact ⟨Nat.le_refl _, Nat.zero_le _⟩
  | cons hface _ ih =>
    rw [List.length_cons, List.sum_cons, Nat.succ_mul]
    omega

/-- **The answer of a monster that no relic softens**: the dice that it rolls, if it
strikes at all, are all that the damage comes from. -/
theorem Judgement.strike_bounds {relics : List Relic} (hidle : Relics.Idle .takeDamage relics)
    {j : Judgement Float} (hprevent : j.appraisal.preventOverkillDamage = false)
    {m : Monster Float} {count : Nat}
    (hcount : count = if j.outcome.retaliate then m.attackDiceCount else 0)
    (memo : RelicMemo) (g : Generator Float) :
    (j.retaliation m relics memo g).rolls.length = count
      ∧ count ≤ (j.retaliation m relics memo g).damage
      ∧ (j.retaliation m relics memo g).damage ≤ count * m.attackDie.sides := by
  have hkept : j.overkillPrevented = false := by
    unfold overkillPrevented
    rw [hprevent, Bool.and_false]
  unfold retaliation
  simp only [soften_of_idle hidle, hkept, Bool.false_eq_true, if_false, ← List.sum_eq_foldl]
  cases hstrikes : j.outcome.retaliate with
  | false => simp [hcount, hstrikes]
  | true =>
    rw [hstrikes, if_pos rfl] at hcount
    have hrolls := m.forall₂_rollAttack g
    have hlength := hrolls.length_eq
    have hbounds := total_bounds hrolls
    rw [List.length_replicate, ← hcount] at hlength hbounds
    exact ⟨hlength.symm, hbounds⟩

/-! ## How a result lands -/

section

variable {α : Type} [Scalar α]

/-- **A result that is judged is blocked by the first condition that blocks it**, and by
nothing else. -/
theorem DamageRules.blockReason?_judge (rules : DamageRules α) (conditions : List Condition)
    (result target : α) :
    (rules.judge conditions result target).blockReason?
      = conditions.findSome? (rules.gate? result target) := by
  unfold judge
  cases conditions.findSome? (rules.gate? result target) with
  | some reason => rfl
  | none =>
    dsimp only
    unfold land
    split
    · rfl
    · split
      · rfl
      · split <;> rfl

/-- No condition blocks a result on behalf of the boss. -/
theorem DamageRules.gate?_ne_boss (rules : DamageRules α) (result target : α)
    (condition : Condition) (ability : BossAbility) (value : α) :
    rules.gate? result target condition ≠ some (.boss ability value) := by
  unfold gate?
  split
  · split <;> simp
  · split <;> simp
  · split <;> simp
  · simp

theorem DamageRules.blockReason?_judge_ne_boss (rules : DamageRules α)
    (conditions : List Condition) (result target : α) (ability : BossAbility) (value : α) :
    (rules.judge conditions result target).blockReason? ≠ some (.boss ability value) := by
  rw [blockReason?_judge]
  intro h
  obtain ⟨condition, -, hcondition⟩ := List.exists_of_findSome?_eq_some h
  exact rules.gate?_ne_boss result target condition ability value hcondition

/-! ## The parts of a preview -/

namespace Session

variable {s : Session α} {run : Run α} {balance : Balance α} {raw : α}

theorem violation?_eq_some_iff {violation : Violation} :
    s.violation? raw = some violation ↔ s.checkConditions raw = .error violation := by
  unfold violation?
  cases s.checkConditions raw <;> simp

theorem violation?_eq_none_iff : s.violation? raw = none ↔ s.checkConditions raw = .ok () := by
  unfold violation?
  cases s.checkConditions raw <;> simp

/-- How a turn would end with a value that nothing refuses. -/
def damageForeseen (s : Session α) (run : Run α) (balance : Balance α) (raw : α) :
    DamagePreview α :=
  if (s.immunity? raw).isSome then s.blockedPreview raw
  else s.damagePreview (rulesOf run balance) raw

/-- **A preview fails with the fault of the expression.** -/
theorem preview_eq_error_iff {fault : ExpressionFault α} :
    s.preview run balance = .error fault ↔ s.expression.evaluate = .error fault := by
  unfold preview
  cases s.expression.evaluate <;> simp [bind, Except.bind, pure, Except.pure]

/-- **A preview is about the value of the expression**, and if nothing refuses the value
it says how the turn would end. -/
theorem eq_of_preview {p : Preview α} (h : s.preview run balance = .ok p) :
    ∃ evaluation, s.expression.evaluate = .ok evaluation
      ∧ p.result = evaluation.result
      ∧ p.combos = .ofAttempt (s.attempt evaluation.result)
      ∧ p.violation = s.violation? evaluation.result
      ∧ (p.violation = none →
        p.damage = some (s.damageForeseen run balance evaluation.result)) := by
  unfold preview at h
  cases hevaluate : s.expression.evaluate with
  | error fault => simp [hevaluate, bind, Except.bind] at h
  | ok evaluation =>
    rw [hevaluate] at h
    obtain rfl := Except.ok.inj h
    refine ⟨evaluation, rfl, rfl, rfl, rfl, fun hnone => ?_⟩
    dsimp only at hnone ⊢
    unfold damageForeseen
    split
    · rfl
    · rw [hnone]
      rfl

end Session

/-! ## Foresight -/

/-- **What a preview tells of a turn**: whether the boss is immune to the value, and if
not, how the value lands; how many dice the monster rolls; and the bounds of the damage. -/
structure DamagePreview.Foresees (d : DamagePreview α) (r : Resolution α) : Prop where
  /-- The boss is immune to the value if the preview says so, and only then. -/
  bossBlocked_iff : d.bossBlocked = true
    ↔ ∃ ability value, r.outcome.blockReason? = some (.boss ability value)
  /-- Unless the boss is immune, the outcome is the one foreseen. -/
  outcome_eq : d.bossBlocked = false → d.outcome = some r.outcome
  /-- The monster rolls as many dice as foreseen. -/
  length_attackRolls : r.attackRolls.length = d.attackDiceCount
  /-- The damage is not below the lower bound. -/
  minDamage_le : d.minDamage ≤ r.damageTaken
  /-- The damage is not above the upper bound. -/
  le_maxDamage : r.damageTaken ≤ d.maxDamage

end

namespace Session

variable {run : Run Float} (s : Session Float) (balance : Balance Float) (raw : Float)

/-- Without relics that take part in it, a result is judged by its own value. -/
theorem outcome_resolve_of_idle (hevaluate : Relics.Idle .evaluate run.player.relics) :
    (s.resolve run balance raw).resolution.outcome =
      match s.immunity? raw with
      | some ability => .blocked (.boss ability raw)
      | none => (rulesOf run balance).judge s.conditions raw s.monster.hp := by
  show s.outcomeOf (rulesOf run balance) raw
    (Relics.onEvaluate run.player.relics (s.verdict raw) s.memo).1 = _
  rw [Relics.onEvaluate_of_idle hevaluate]
  rfl

/-- Without relics that take part in it, the monster's answer is what its dice show. -/
theorem strike_resolve_of_idle (hevaluate : Relics.Idle .evaluate run.player.relics)
    (hdamage : Relics.Idle .takeDamage run.player.relics) (count : Nat)
    (hcount : count = if (s.resolve run balance raw).resolution.outcome.retaliate
      then s.monster.attackDiceCount else 0) :
    (s.resolve run balance raw).resolution.attackRolls.length = count
      ∧ count ≤ (s.resolve run balance raw).resolution.damageTaken
      ∧ (s.resolve run balance raw).resolution.damageTaken
        ≤ count * s.monster.attackDie.sides := by
  have hprevent : (s.judgementOf run balance raw).appraisal.preventOverkillDamage = false := by
    show (Relics.onEvaluate run.player.relics (s.verdict raw) s.memo).1.preventOverkillDamage
      = false
    rw [Relics.onEvaluate_of_idle hevaluate]
  exact Judgement.strike_bounds hdamage hprevent hcount _ _

/-- **A turn that no relic interferes with ends as foreseen.** -/
theorem foresees_resolve (hevaluate : Relics.Idle .evaluate run.player.relics)
    (hdamage : Relics.Idle .takeDamage run.player.relics) :
    (s.damageForeseen run balance raw).Foresees (s.resolve run balance raw).resolution := by
  have houtcome := s.outcome_resolve_of_idle balance raw hevaluate
  unfold damageForeseen
  cases himmunity : s.immunity? raw with
  | some ability =>
    rw [himmunity] at houtcome
    obtain ⟨hlength, hmin, hmax⟩ := s.strike_resolve_of_idle balance raw hevaluate hdamage
      s.monster.attackDiceCount (by rw [houtcome]; rfl)
    refine ⟨?_, nofun, hlength, hmin, hmax⟩
    rw [houtcome]
    exact ⟨fun _ => ⟨ability, raw, rfl⟩, fun _ => rfl⟩
  | none =>
    rw [himmunity] at houtcome
    obtain ⟨hlength, hmin, hmax⟩ := s.strike_resolve_of_idle balance raw hevaluate hdamage _ rfl
    rw [houtcome] at hlength hmin hmax
    refine ⟨?_, fun _ => congrArg some houtcome.symm, hlength, hmin, hmax⟩
    rw [houtcome]
    exact ⟨nofun, fun ⟨ability, value, h⟩ =>
      absurd h ((rulesOf run balance).blockReason?_judge_ne_boss _ _ _ ability value)⟩

/-- **A preview foresees the submission**, while the encounter goes on and the player owns
no relic that takes part in judging a result or in a hit. It fails with the fault of the
expression exactly if the submission does. Otherwise it reports the violation for which
the submission is refused; and if it reports none, the submission resolves a turn with the
value and the combos of the preview, and it ends as the preview foresees. -/
theorem preview_foresees_submit (hphase : s.phase = .building)
    (hevaluate : Relics.Idle .evaluate run.player.relics)
    (hdamage : Relics.Idle .takeDamage run.player.relics) :
    (∀ fault, s.preview run balance = .error fault
        ↔ s.submit run balance = .error (.expression fault))
      ∧ ∀ p, s.preview run balance = .ok p →
        (∀ text, p.violation.map Violation.message = some text
            ↔ ∃ violation, s.submit run balance = .error (.condition violation)
              ∧ violation.message = text)
          ∧ (p.violation = none → ∃ t damage, s.submit run balance = .ok t
              ∧ p.damage = some damage
              ∧ t.resolution.rawValue = p.result
              ∧ t.resolution.combos = p.combos
              ∧ damage.Foresees t.resolution) := by
  have hover : s.isOver = false := by
    unfold isOver
    rw [hphase]
    rfl
  refine ⟨fun fault => ?_, fun p hp => ?_⟩
  · rw [preview_eq_error_iff, submit_eq_expression_iff hover]
  · obtain ⟨evaluation, hvalue, hresult, hcombos, hviolation, hforeseen⟩ := eq_of_preview hp
    refine ⟨fun text => ?_, fun hnone => ?_⟩
    · rw [Option.map_eq_some_iff, hviolation]
      refine exists_congr fun violation => ?_
      rw [violation?_eq_some_iff, submit_eq_condition_iff hover hvalue]
    · have haccept : s.accept = .ok evaluation.result :=
        accept_eq_ok_iff.mpr ⟨hover, ⟨evaluation, hvalue, rfl⟩,
          violation?_eq_none_iff.mp (hviolation.symm.trans hnone)⟩
      exact ⟨s.resolve run balance evaluation.result,
        s.damageForeseen run balance evaluation.result,
        submit_eq_ok_iff.mpr ⟨_, haccept, rfl⟩, hforeseen hnone, hresult.symm, hcombos.symm,
        s.foresees_resolve balance _ hevaluate hdamage⟩

/-- A run whose only relic has no say in a turn. -/
def luckyRun : Run Float where
  player := { Player.fresh 80 50 1 [.ofType .d6] [] with relics := [.luckyCoin] }
  progress := .start 1 (.forLevel 0 .standard)

/-- An encounter with a rat, in which the only die is placed. -/
def facingRat : Session Float :=
  let rat : Monster Float := ⟨"rat", "Sewer Rat", 7, 7, .d6, 1, 1, false, none, (6, 12)⟩
  { opening rat [.noFractions] ⟨1⟩ with
    dice := [{ Die.blank ⟨0⟩ (.ofType .d6) with value := some 5 }]
    expression := [.ofDie 5 ⟨0⟩] }

/-- The turn in which the rat is hit for five is resolved as foreseen. -/
theorem preview_foresees_submit_rat :
    facingRat.phase = .building
      ∧ Relics.Idle .evaluate luckyRun.player.relics
      ∧ Relics.Idle .takeDamage luckyRun.player.relics
      ∧ ∃ p t damage, facingRat.preview luckyRun .standard = .ok p
        ∧ facingRat.submit luckyRun .standard = .ok t
        ∧ p.damage = some damage ∧ damage.Foresees t.resolution := by
  have hevaluate : Relics.Idle .evaluate luckyRun.player.relics := by decide
  have hdamage : Relics.Idle .takeDamage luckyRun.player.relics := by decide
  have haccepted : (facingRat.preview luckyRun .standard).toOption.any
      (fun p => p.violation.isNone) = true := by decide +kernel
  have hforesees := facingRat.preview_foresees_submit .standard rfl hevaluate hdamage
  cases hpreview : facingRat.preview luckyRun .standard with
  | error fault =>
    rw [hpreview] at haccepted
    cases haccepted
  | ok p =>
    rw [hpreview] at haccepted
    obtain ⟨t, damage, hsubmit, hp, -, -, hends⟩ :=
      (hforesees.2 p hpreview).2 (Option.isNone_iff_eq_none.mp haccepted)
    exact ⟨rfl, hevaluate, hdamage, p, t, damage, rfl, hsubmit, hp, hends⟩

end Session

end Arithmancy
