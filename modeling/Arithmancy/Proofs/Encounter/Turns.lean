import Arithmancy.Encounter.Turn
import Arithmancy.Proofs.Relic.Passes

/-!
# What a turn leaves behind

A turn is resolved in many stages, and most of what is said about turns needs none of
them. This module says once what a resolved turn leaves: the encounter is settled with
what happened (`Session.settled`), and goes on with a fresh tray unless it is over; the
tally of the run counts the turn; and a submission is refused exactly if the encounter
is over, the expression has no value, or a condition objects, in that order.
-/

namespace Arithmancy

variable {α : Type} [Scalar α]

/-! ## What relics remember -/

theorem evaluations_soften (relics : List Relic) (total : Nat) (memo : RelicMemo) :
    (soften relics total memo).2.evaluations = memo.evaluations := by
  unfold soften
  split
  · exact Relics.evaluations_onTakeDamage relics total memo
  · rfl

namespace Session

variable {s : Session α} {run : Run α} {balance : Balance α} {raw : α} {t : TurnResult α}

/-! ## The end of a turn -/

/-- **The encounter at the end of a turn**, before the next one begins. -/
def settled (s : Session α) (r : Resolution α) (lines : List String) (generator : Generator α)
    (memo : RelicMemo) : Session α :=
  { s with
    monster := { s.monster with hp := r.monsterHp }
    expression := []
    phase := r.phase
    log := s.log ++ lines
    lastResolution := some r
    generator := generator
    memo := memo }

/-- The rules of damage that are in force. -/
def rulesOf (run : Run α) (balance : Balance α) : DamageRules α :=
  .inForce balance run.progress.modifiers

/-- How a turn is judged. -/
def judgementOf (s : Session α) (run : Run α) (balance : Balance α) (raw : α) : Judgement α :=
  (s.judge run.player.relics (rulesOf run balance) raw).1

/-- How the monster answers in a turn. -/
def retaliationOf (s : Session α) (run : Run α) (balance : Balance α) (raw : α) : Retaliation α :=
  (s.judgementOf run balance raw).retaliation s.monster run.player.relics
    (s.judge run.player.relics (rulesOf run balance) raw).2 s.generator

theorem evaluations_retaliationOf (s : Session α) (run : Run α) (balance : Balance α) (raw : α) :
    (s.retaliationOf run balance raw).memo.evaluations = s.memo.evaluations + 1 :=
  evaluations_soften _ _ _

/-- **A turn settles the encounter** with what happened in it. Unless the encounter is
over then, the next turn begins. -/
theorem session_resolve (s : Session α) (run : Run α) (balance : Balance α) (raw : α) :
    ∃ lines, (s.resolve run balance raw).session =
      let r := (s.resolve run balance raw).resolution
      let settled := s.settled r lines (s.retaliationOf run balance raw).generator
        (s.retaliationOf run balance raw).memo
      if r.phase.isOver then settled
      else settled.nextTurn (s.resolve run balance raw).run.player :=
  ⟨_, rfl⟩

/-- What relics remember after a turn is what they remember of the monster's answer. -/
theorem memo_resolve (s : Session α) (run : Run α) (balance : Balance α) (raw : α) :
    (s.resolve run balance raw).session.memo = (s.retaliationOf run balance raw).memo := by
  obtain ⟨lines, hsession⟩ := s.session_resolve run balance raw
  rw [hsession]
  dsimp only
  split <;> rfl

/-- **What a turn writes into an encounter**, whether the encounter goes on or not. -/
structure Settles (s : Session α) (t : TurnResult α) : Prop where
  /-- The monster is left with the hit points that are reported. -/
  monster : t.session.monster = { s.monster with hp := t.resolution.monsterHp }
  /-- The encounter stands where the report says. -/
  phase : t.session.phase = t.resolution.phase
  /-- The report is kept. -/
  report : t.session.lastResolution = some t.resolution
  /-- It is the report of this turn. -/
  reported : t.resolution.turn = s.turn
  /-- What happened is told after all that was told before. -/
  log : s.log <+: t.session.log
  /-- The expression is empty. -/
  expression : t.session.expression = []
  /-- Relics have seen one evaluation more. -/
  evaluations : t.session.memo.evaluations = s.memo.evaluations + 1
  /-- The next turn begins unless the encounter is over. -/
  turn : t.session.turn = if t.session.isOver then s.turn else s.turn + 1

theorem settles_resolve (s : Session α) (run : Run α) (balance : Balance α) (raw : α) :
    s.Settles (s.resolve run balance raw) := by
  obtain ⟨lines, hsession⟩ := s.session_resolve run balance raw
  have hmemo := s.evaluations_retaliationOf run balance raw
  dsimp only at hsession
  -- a fresh tray changes nothing of what is written, apart from the number of the turn
  split at hsession
  · next hover =>
    refine ⟨?_, ?_, ?_, rfl, ?_, ?_, ?_, ?_⟩ <;> rw [hsession]
    · rfl
    · rfl
    · rfl
    · exact List.prefix_append _ _
    · rfl
    · exact hmemo
    · exact (if_pos hover).symm
  · next hover =>
    refine ⟨?_, ?_, ?_, rfl, ?_, ?_, ?_, ?_⟩ <;> rw [hsession]
    · rfl
    · rfl
    · rfl
    · exact (List.prefix_append _ _).trans (List.prefix_append _ _)
    · rfl
    · exact hmemo
    · exact (if_neg hover).symm

/-- **What a turn does with the tray**: it leaves it to the encounter that is over, or deals a
fresh one. -/
theorem tray_resolve (s : Session α) (run : Run α) (balance : Balance α) (raw : α) :
    (s.resolve run balance raw).session.isOver = true
        ∧ (s.resolve run balance raw).session.dice = s.dice
      ∨ ∃ s', (s.resolve run balance raw).session
        = withFreshTray s' (s.resolve run balance raw).run.player := by
  obtain ⟨lines, hsession⟩ := s.session_resolve run balance raw
  dsimp only at hsession
  split at hsession
  · next hover =>
    rw [hsession]
    exact .inl ⟨hover, rfl⟩
  · exact .inr ⟨_, hsession⟩

/-! ## Submissions -/

/-- **A submission is accepted** exactly if the encounter is not over, the expression has
a value, and no condition objects to it. -/
theorem accept_eq_ok_iff :
    s.accept = .ok raw ↔ s.isOver = false
      ∧ (∃ evaluation, s.expression.evaluate = .ok evaluation ∧ evaluation.result = raw)
      ∧ s.checkConditions raw = .ok () := by
  unfold accept
  cases s.isOver with
  | true => simp
  | false =>
    cases s.expression.evaluate with
    | error fault => simp
    | ok evaluation =>
      constructor
      · intro h
        cases hcheck : s.checkConditions evaluation.result with
        | error violation => simp [hcheck] at h
        | ok _ =>
          simp only [hcheck] at h
          obtain rfl := Except.ok.inj h
          exact ⟨rfl, ⟨evaluation, rfl, rfl⟩, hcheck⟩
      · rintro ⟨-, ⟨_, heq, rfl⟩, hcheck⟩
        obtain rfl := Except.ok.inj heq
        simp only [hcheck]
        rfl

/-- **The first thing that stands in the way of a submission**: the encounter is over;
or the expression has no value; or a condition objects to the value or to the expression;
or a condition asks for all dice and some are missing. -/
inductive Refuses (s : Session α) : SubmissionFault α → Prop where
  | ended (h : s.isOver = true) : Refuses s .notBuilding
  | expression {fault : ExpressionFault α} (h : s.isOver = false)
    (he : s.expression.evaluate = .error fault) : Refuses s (.expression fault)
  | condition {evaluation : Evaluation α} {violation : Violation} (h : s.isOver = false)
    (he : s.expression.evaluate = .ok evaluation)
    (hv : Condition.validate s.conditions evaluation.result s.expression = .error violation) :
    Refuses s (.condition violation)
  | allDice {evaluation : Evaluation α} {violation : Violation} (h : s.isOver = false)
    (he : s.expression.evaluate = .ok evaluation)
    (hv : Condition.validate s.conditions evaluation.result s.expression = .ok ())
    (ha : Condition.checkAllDice s.conditions s.expression s.dice.length = .error violation) :
    Refuses s (.condition violation)

theorem checkConditions_eq_error_iff {violation : Violation} :
    s.checkConditions raw = .error violation ↔
      Condition.validate s.conditions raw s.expression = .error violation
      ∨ Condition.validate s.conditions raw s.expression = .ok ()
        ∧ Condition.checkAllDice s.conditions s.expression s.dice.length = .error violation := by
  unfold checkConditions
  cases Condition.validate s.conditions raw s.expression <;> simp [bind, Except.bind]

/-- **A submission is refused** for the first thing that stands in its way. -/
theorem accept_eq_error_iff {fault : SubmissionFault α} :
    s.accept = .error fault ↔ s.Refuses fault := by
  constructor
  · intro h
    unfold accept at h
    split at h
    · next hover =>
      rw [← Except.error.inj h]
      exact .ended hover
    · next hover =>
      rw [Bool.not_eq_true] at hover
      cases hevaluate : s.expression.evaluate with
      | error f =>
        simp only [hevaluate] at h
        rw [← Except.error.inj h]
        exact .expression hover hevaluate
      | ok evaluation =>
        cases hcheck : s.checkConditions evaluation.result with
        | ok _ => simp [hevaluate, hcheck] at h
        | error violation =>
          simp only [hevaluate, hcheck] at h
          rw [← Except.error.inj h]
          rcases checkConditions_eq_error_iff.mp hcheck with hv | ⟨hv, ha⟩
          · exact .condition hover hevaluate hv
          · exact .allDice hover hevaluate hv ha
  · intro h
    unfold accept
    cases h with
    | ended h => rw [if_pos h]
    | expression h he => simp only [h, he]; rfl
    | condition h he hv => simp only [h, he, checkConditions_eq_error_iff.mpr (.inl hv)]; rfl
    | allDice h he hv ha => simp only [h, he, checkConditions_eq_error_iff.mpr (.inr ⟨hv, ha⟩)]; rfl

theorem submit_eq_ok_iff :
    s.submit run balance = .ok t ↔ ∃ raw, s.accept = .ok raw ∧ t = s.resolve run balance raw := by
  unfold submit
  cases s.accept with
  | error fault => simp
  | ok raw => simp [eq_comm]

theorem submit_eq_error_iff {fault : SubmissionFault α} :
    s.submit run balance = .error fault ↔ s.Refuses fault := by
  rw [← accept_eq_error_iff]
  unfold submit
  cases s.accept <;> simp

/-- As long as the encounter goes on, a submission has the fault of its expression. -/
theorem submit_eq_expression_iff (hover : s.isOver = false) {fault : ExpressionFault α} :
    s.submit run balance = .error (.expression fault) ↔ s.expression.evaluate = .error fault := by
  rw [submit_eq_error_iff]
  constructor
  · intro h
    cases h with
    | expression _ he => exact he
  · exact .expression hover

/-- As long as the encounter goes on, a submission whose expression has a value is refused
by the condition that objects to it. -/
theorem submit_eq_condition_iff (hover : s.isOver = false) {evaluation : Evaluation α}
    (hevaluate : s.expression.evaluate = .ok evaluation) {violation : Violation} :
    s.submit run balance = .error (.condition violation)
      ↔ s.checkConditions evaluation.result = .error violation := by
  rw [submit_eq_error_iff, checkConditions_eq_error_iff]
  constructor
  · intro h
    cases h with
    | condition _ he hv =>
      obtain rfl := Except.ok.inj (hevaluate.symm.trans he)
      exact .inl hv
    | allDice _ he hv ha =>
      obtain rfl := Except.ok.inj (hevaluate.symm.trans he)
      exact .inr ⟨hv, ha⟩
  · rintro (hv | ⟨hv, ha⟩)
    · exact .condition hover hevaluate hv
    · exact .allDice hover hevaluate hv ha

/-- **One turn is spent by a submission that is accepted**: it is counted by the run and
by the relics, the expression is empty, and the next turn begins unless the encounter is
over. -/
theorem spent_of_submit (h : s.submit run balance = .ok t) :
    t.run.progress.tally.turnsPlayed = run.progress.tally.turnsPlayed + 1
      ∧ t.session.memo.evaluations = s.memo.evaluations + 1
      ∧ t.session.expression = []
      ∧ (t.session.isOver = true ∧ t.session.turn = s.turn
        ∨ t.session.isOver = false ∧ t.session.turn = s.turn + 1) := by
  obtain ⟨raw, -, rfl⟩ := submit_eq_ok_iff.mp h
  have hsettles := s.settles_resolve run balance raw
  refine ⟨rfl, hsettles.evaluations, hsettles.expression, ?_⟩
  have hturn := hsettles.turn
  cases hover : (s.resolve run balance raw).session.isOver with
  | true => exact .inl ⟨rfl, by rwa [if_pos hover] at hturn⟩
  | false => exact .inr ⟨rfl, by rwa [if_neg (by rw [hover]; decide)] at hturn⟩

end Session

end Arithmancy
