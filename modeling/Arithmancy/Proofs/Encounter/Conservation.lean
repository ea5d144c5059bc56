import Mathlib.Data.List.Induction
import Arithmancy.Monster.Bestiary
import Arithmancy.Proofs.Chance.Draws
import Arithmancy.Proofs.Encounter.Deeds
import Arithmancy.Proofs.Encounter.Opening
import Arithmancy.Proofs.Encounter.Remainder

/-!
# Damage is conserved

Numbers are read exactly here, whatever roots, logarithms and powers are. The hit points of a
monster and the damage that a run counts are reckoned apart: the monster is left with the number
to hit less the wound, rounded up and never negative, and the run counts the damage that was
dealt, rounded to the nearest integer and only if it is positive. As long as the number to hit
is an integer and wounds are not doubled, the two agree: what the monster loses is what the run
counts (`Session.exists_loss_resolve`).

Conditions can change both, and nothing else can. So in an encounter without a target with
decimals and without doubled damage, and as long as no target is drawn anew, the hit points
that are left and the damage that was counted since the start always add up to the number
that was to be hit at first (`Scene.damage_conserved`).
-/

namespace Arithmancy

/-! ## Drawn targets are small -/

namespace Exact

theorem truncate_intCast (n : Int) : truncate (n : Rat) = n := by
  unfold truncate
  rw [Rat.num_intCast, Rat.den_intCast]
  exact Int.tdiv_one n

variable [Operations]

theorem toNat_le (high : Nat) (x : Rat) : Scalar.toNat high x ≤ high := by
  show (max 0 (min (high : Int) (truncate x))).toNat ≤ high
  omega

/-- A counter that is wide enough holds a natural number. -/
theorem toNat_natCast {high n : Nat} (h : n ≤ high) : Scalar.toNat high (n : Rat) = n := by
  have htruncate : truncate (n : Rat) = n := truncate_intCast n
  show (max 0 (min (high : Int) (truncate (n : Rat)))).toNat = n
  rw [htruncate]
  omega

/-- Rounding changes no integer. -/
theorem roundHalfUp_intCast (n : Int) : Figures.roundHalfUp (n : Rat) = n := by
  show (((n : Rat) + 0.5).floor : Rat) = n
  have hhalf : (0.5 : Rat).floor = 0 := by decide +kernel
  rw [add_comm, Rat.floor_add_intCast, hhalf, zero_add]

end Exact

namespace Generator

/-- An integer drawn from one to three is at most three. -/
theorem nextInt_le_three [Exact.Operations] (g : Generator Rat) : (Source.nextInt 1 3 g).1 ≤ 3 := by
  have hfloor : ((Source.draw g).1 * (3 : Int)).floor < 3 := by
    rw [Rat.floor_lt_iff]
    have hdraw := g.draw_lt_one
    push_cast
    linarith
  show max minInt64 (min maxInt64
    (Exact.truncate (((Source.draw g).1 * (3 : Int)).floor : Rat))) + 1 ≤ 3
  rw [Exact.truncate_intCast]
  have hmin : minInt64 ≤ 2 := by decide
  omega

end Generator

namespace Session

/-- **The number to hit** at the start of an encounter is a natural number, unless a condition
gives it decimals, and counters are wide enough for it. -/
theorem exists_hp_of_start [Exact.Operations] {run : Run Rat} {bestiary : Bestiary}
    {challenge : Challenge} {s : Session Rat} (h : start run bestiary challenge = .ok s)
    (hdecimal : .decimalTarget ∉ s.conditions) :
    ∃ n : Nat, n ≤ maxCount64 ∧ s.monster.hp = n := by
  obtain ⟨template, g, g', hmonster⟩ := exists_monster_of_start h
  have hplain : (withFraction (Monster.spawn template run.progress.floor run.progress.modifiers
      g).1 s.conditions g').1
        = (Monster.spawn template run.progress.floor run.progress.modifiers g).1 := by
    rw [withFraction, if_neg (by rwa [List.contains_iff_mem])]
  have hsmall := Monster.drawnHp_le (Generator.nextInt_le_three) (Exact.toNat_le maxCount32)
    template run.progress.floor run.progress.modifiers g
  refine ⟨(Monster.drawnHp template run.progress.floor run.progress.modifiers g).1, ?_, ?_⟩
  · exact hsmall.trans (by decide)
  · rw [hmonster, hplain]
    rfl

end Session

/-! ## What a turn takes -/

/-- **What an outcome deals** to a monster whose number to hit is an integer: an integer that is
no more, all of it if the outcome is lethal, and nothing if it is blocked. -/
structure Outcome.Weighs (o : Outcome Rat) (n z : Int) : Prop where
  /-- It is no more than the number to hit. -/
  le : z ≤ n
  /-- It is what is dealt. -/
  dealt : o.dealt = z
  /-- A lethal outcome deals all of it. -/
  lethal : o.isLethal = true → z = n
  /-- A blocked one deals nothing. -/
  blocked : o.blockReason? ≠ none → z = 0

theorem Outcome.weighs_blocked (reason : BlockReason Rat) {n : Int} (hn : 0 ≤ n) :
    (Outcome.blocked reason).Weighs n 0 :=
  ⟨hn, rfl, nofun, fun _ => rfl⟩

namespace DamageRules

variable {rules : DamageRules Rat} {conditions : List Condition} {result : Rat} {n : Int}

theorem exists_weighs_judge [Exact.Operations] (hn : 0 ≤ n) (hplain : .glassCannon ∉ conditions) :
    ∃ z, (rules.judge conditions result (n : Rat)).Weighs n z := by
  have hlands := rules.lands_judge conditions result (n : Rat)
  generalize rules.judge conditions result (n : Rat) = o at hlands ⊢
  cases hlands with
  | blocked _ => exact ⟨0, Outcome.weighs_blocked _ hn⟩
  | exact _ _ | overkill _ _ | nearMiss _ _ =>
    exact ⟨n, le_refl n, rfl, fun _ => rfl, fun h => absurd rfl h⟩
  | underkill hexact hover _ =>
    have hbelow := le_of_isOver_eq_false hexact hover
    exact ⟨result.ceil, Rat.ceil_le_iff.mpr hbelow, wound_eq_ceil hplain result, nofun,
      fun h => absurd rfl h⟩

end DamageRules

/-- **What is left of the monster** is the number to hit less what was dealt, if that is
positive. -/
theorem Judgement.remainder_eq [Exact.Operations] {j : Judgement Rat} {n z : Int} (hn : 0 ≤ n)
    (htarget : j.target = n) (hweighs : j.outcome.Weighs n z) :
    j.remainder = ((n - max z 0 : Int) : Rat) := by
  have hlethal := hweighs.lethal
  have hblocked := hweighs.blocked
  unfold Outcome.isLethal at hlethal
  unfold Outcome.blockReason? at hblocked
  unfold Judgement.remainder
  cases hkind : j.outcome.kind with
  | exact | overkill | nearMiss =>
    rw [hkind] at hlethal
    rw [hlethal rfl, max_eq_left hn, sub_self]
    rfl
  | blocked reason =>
    rw [hkind] at hblocked
    rw [hblocked nofun, htarget, max_self, sub_zero]
  | underkill =>
    rw [htarget, hweighs.dealt, Exact.positivePart_eq]
    have hcast : (n : Rat) - max (z : Rat) 0 = ((n - max z 0 : Int) : Rat) := by push_cast; rfl
    rw [hcast]
    show (((n - max z 0 : Int) : Rat).ceil : Rat) = _
    rw [Rat.ceil_intCast]

/-- **What is counted** of a positive integer is that integer. -/
theorem Tally.totalDamageDealt_after [Exact.Operations] {t : Tally Rat} {r : Resolution Rat}
    {z : Int} (hdealt : r.outcome.dealt = z) (hwide : z ≤ maxCount64) :
    (t.after r).totalDamageDealt = t.totalDamageDealt + z.toNat := by
  show (if (0 : Rat) < r.outcome.dealt then t.totalDamageDealt
    + Scalar.toNat maxCount64 (Figures.roundHalfUp r.outcome.dealt) else t.totalDamageDealt) = _
  rw [hdealt, Exact.roundHalfUp_intCast]
  split
  · next hpos =>
    have hz : 0 < z := by exact_mod_cast hpos
    have hcast : (z : Rat) = (z.toNat : Rat) := by exact_mod_cast (Int.toNat_of_nonneg hz.le).symm
    rw [hcast, Exact.toNat_natCast (by omega)]
  · next hneg =>
    have hz : z ≤ 0 := by exact_mod_cast not_lt.mp hneg
    rw [Int.toNat_of_nonpos hz, Nat.add_zero]

namespace Session

variable [Exact.Operations] (s : Session Rat) (run : Run Rat) (balance : Balance Rat) (raw : Rat)

theorem exists_weighs_judgementOf {n : Int} (hn : 0 ≤ n) (hhp : s.monster.hp = n)
    (hplain : .glassCannon ∉ s.conditions) :
    ∃ z, (s.judgementOf run balance raw).outcome.Weighs n z := by
  show ∃ z, (s.outcomeOf (rulesOf run balance) raw
    (s.judgementOf run balance raw).appraisal).Weighs n z
  unfold outcomeOf
  split
  · exact ⟨0, Outcome.weighs_blocked _ hn⟩
  · rw [hhp]
    exact DamageRules.exists_weighs_judge hn hplain

/-- **What the monster loses in a turn is what the run counts**, if the number to hit is a
natural number and wounds are not doubled. -/
theorem exists_loss_resolve {n : Nat} (hhp : s.monster.hp = n) (hwide : n ≤ maxCount64)
    (hplain : .glassCannon ∉ s.conditions) :
    ∃ k, k ≤ n ∧ (s.resolve run balance raw).resolution.monsterHp = ((n - k : Nat) : Rat)
      ∧ (s.resolve run balance raw).run.progress.tally.totalDamageDealt
        = run.progress.tally.totalDamageDealt + k := by
  have hn : (0 : Int) ≤ n := Int.natCast_nonneg n
  have hcast : s.monster.hp = ((n : Int) : Rat) := hhp
  obtain ⟨z, hweighs⟩ := s.exists_weighs_judgementOf run balance raw hn hcast hplain
  have hle := hweighs.le
  refine ⟨z.toNat, by omega, ?_, ?_⟩
  · have hrest : (n : Int) - max z 0 = ((n - z.toNat : Nat) : Int) := by omega
    rw [monsterHp_eq_positivePart, Judgement.remainder_eq hn hcast hweighs, hrest,
      Exact.positivePart_eq]
    exact max_eq_left (Exact.ofNat_nonneg _)
  · rw [progress_resolve]
    exact Tally.totalDamageDealt_after hweighs.dealt (by omega)

/-- A turn changes no condition. -/
theorem conditions_resolve : (s.resolve run balance raw).session.conditions = s.conditions := by
  obtain ⟨lines, hsession⟩ := s.session_resolve run balance raw
  dsimp only at hsession
  split at hsession <;> rw [hsession] <;> rfl

end Session

/-! ## Encounters -/

namespace Scene

/-- **An encounter accounts for its damage**: the hit points that are left and the damage that
was counted add up to a given sum. -/
structure Accounts (c : Scene Rat) (sum : Rat) : Prop where
  /-- The number to hit is a natural number, and counters are wide enough for it. -/
  whole : ∃ n : Nat, n ≤ maxCount64 ∧ c.session.monster.hp = n
  /-- Wounds are not doubled. -/
  plain : .glassCannon ∉ c.session.conditions
  /-- The hit points that are left and the damage that was counted add up. -/
  adds : c.session.monster.hp + (c.run.progress.tally.totalDamageDealt : Rat) = sum
  /-- Once the encounter is won there are none left. -/
  slain : c.session.phase = .victory → c.session.monster.hp = 0

section

variable [Exact.Operations] {c c' : Scene Rat} {balance : Balance Rat} {sum : Rat}

/-- **A turn is accounted for.** -/
theorem Accounts.turn (h : c.Accounts sum) (raw : Rat) :
    Accounts ⟨(c.session.resolve c.run balance raw).session,
      (c.session.resolve c.run balance raw).run⟩ sum := by
  obtain ⟨n, hwide, hhp⟩ := h.whole
  obtain ⟨k, hle, hleft, hcounted⟩ :=
    c.session.exists_loss_resolve c.run balance raw hhp hwide h.plain
  have hsettles := c.session.settles_resolve c.run balance raw
  have hmonster : (c.session.resolve c.run balance raw).session.monster.hp
      = (c.session.resolve c.run balance raw).resolution.monsterHp := by rw [hsettles.monster]
  refine ⟨⟨n - k, by omega, hmonster.trans hleft⟩, ?_, ?_, fun hvictory => ?_⟩
  · show .glassCannon ∉ (c.session.resolve c.run balance raw).session.conditions
    rw [Session.conditions_resolve]
    exact h.plain
  · show (c.session.resolve c.run balance raw).session.monster.hp
      + ((c.session.resolve c.run balance raw).run.progress.tally.totalDamageDealt : Rat) = sum
    rw [hmonster, hleft, hcounted, ← h.adds, hhp]
    push_cast [hle]
    linarith
  · have hdead := Session.victory_resolve_iff.mp hvictory
    have hgone : (c.session.judgementOf c.run balance raw).remainder ≤ 0 :=
      of_decide_eq_true hdead
    refine hmonster.trans ?_
    rw [Session.monsterHp_eq_positivePart, Exact.positivePart_eq]
    exact max_eq_right hgone

/-- Any other deed changes nothing of the account, unless it draws a target anew. -/
theorem Accounts.of_becomes {d : Deed Rat} (h : c.Accounts sum) (hd : c.Becomes balance d c')
    (htarget : d ≠ .rerollBossTarget) : c'.Accounts sum := by
  cases hd with
  | edit _ _ => exact ⟨h.whole, h.plain, h.adds, h.slain⟩
  | reroll _ => exact ⟨h.whole, h.plain, h.adds, h.slain⟩
  | target _ => exact absurd rfl htarget
  | turn _ => exact h.turn _
  | acquire _ => exact ⟨h.whole, h.plain, h.adds, h.slain⟩

/-- **Damage is conserved.** Take an encounter without a target with decimals and without
doubled damage, and any deeds among which no target is drawn anew. Whatever the relics, and
however the turns went, the number to hit at the start is the sum of the hit points that are
left and the damage that the run has counted since. So a victory has counted that number,
neither more nor less. -/
theorem damage_conserved {run : Run Rat} {bestiary : Bestiary} {challenge : Challenge}
    {s : Session Rat} (hstart : Session.start run bestiary challenge = .ok s)
    (hdecimal : .decimalTarget ∉ s.conditions) (hplain : .glassCannon ∉ s.conditions)
    (balance : Balance Rat) (deeds : List (Deed Rat))
    (hnever : ∀ ds, ds ++ [.rerollBossTarget] <+: deeds →
      (after balance ⟨s, run⟩ ds).perform? balance .rerollBossTarget = none) :
    s.monster.hp = (after balance ⟨s, run⟩ deeds).session.monster.hp
        + (((after balance ⟨s, run⟩ deeds).run.progress.tally.totalDamageDealt : Rat)
          - run.progress.tally.totalDamageDealt)
      ∧ ((after balance ⟨s, run⟩ deeds).session.phase = .victory →
        ((after balance ⟨s, run⟩ deeds).run.progress.tally.totalDamageDealt : Rat)
          - run.progress.tally.totalDamageDealt = s.monster.hp) := by
  have haccounts : (after balance ⟨s, run⟩ deeds).Accounts
      (s.monster.hp + run.progress.tally.totalDamageDealt) := by
    induction deeds using List.reverseRecOn with
    | nil =>
      refine ⟨Session.exists_hp_of_start hstart hdecimal, hplain, rfl, fun hvictory => ?_⟩
      obtain ⟨_, _, _, -, -, rfl⟩ := Session.exists_of_start hstart
      cases hvictory
    | append_singleton ds d ih =>
      have hbefore := ih fun ds' hpre => hnever ds' (hpre.trans (List.prefix_append ds [d]))
      rw [after_concat, perform]
      cases hd : (after balance ⟨s, run⟩ ds).perform? balance d with
      | none => exact hbefore
      | some c =>
        refine hbefore.of_becomes (becomes_of_perform? hd) ?_
        rintro rfl
        exact Option.some_ne_none c (hd.symm.trans (hnever ds List.prefix_rfl))
  have hadds := haccounts.adds
  refine ⟨by linarith, fun hvictory => ?_⟩
  rw [haccounts.slain hvictory] at hadds
  linarith

end

/-- A run with two dice and one card. -/
def huntRun : Run Rat where
  player := .fresh 80 50 1 [.ofType .d6, .ofType .d6] [.add]
  progress := .start 1 (.forLevel 0 .standard)

/-- A rat is wounded by one die, and slain by the sum of two that were rerolled. -/
def hunt : List (Deed Rat) :=
  [.placeDie ⟨0⟩, .submit, .reroll, .placeDie ⟨0⟩, .placeOperator 0, .placeDie ⟨1⟩, .submit]

/-- The rat is won against, and its ten hit points are counted. -/
theorem damage_conserved_hunt :
    ∃ s, Session.start huntRun .builtIn (.monster "rat") = .ok s ∧ s.monster.hp = 10
      ∧ (after .standard ⟨s, huntRun⟩ hunt).session.phase = .victory
      ∧ ((after .standard ⟨s, huntRun⟩ hunt).run.progress.tally.totalDamageDealt : Rat)
        - huntRun.progress.tally.totalDamageDealt = s.monster.hp := by
  obtain ⟨s, hstart, hconditions, hhp, hwon⟩ :
      ∃ s, Session.start huntRun .builtIn (.monster "rat") = .ok s ∧ s.conditions = []
        ∧ s.monster.hp = 10 ∧ (after .standard ⟨s, huntRun⟩ hunt).session.phase = .victory :=
    ⟨_, rfl, by decide +kernel, by decide +kernel, by decide +kernel⟩
  refine ⟨s, hstart, hhp, hwon, ?_⟩
  refine (damage_conserved hstart ?_ ?_ .standard hunt fun ds hpre => ?_).2 hwon
  · rw [hconditions]
    exact List.not_mem_nil
  · rw [hconditions]
    exact List.not_mem_nil
  · -- no target is drawn anew
    have hmem : .rerollBossTarget ∈ hunt := hpre.subset (by simp)
    exact absurd hmem (by decide)

end Scene

end Arithmancy
