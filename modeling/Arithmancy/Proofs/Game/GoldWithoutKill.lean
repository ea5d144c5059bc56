import Arithmancy.Proofs.Encounter.Target
import Arithmancy.Proofs.Game.Chronicle
import Arithmancy.Proofs.Game.Refusal
import Arithmancy.Proofs.Relic.Bystanders

/-!
# Gold without a kill

A turn that leaves the monster alive earns no gold in the first place: there is nothing for a kill,
and an exact hit would have killed. But what it earns passes through three multipliers, each
rounded down, and then through all relics of the player, on every turn and whatever became of the
monster. So it is a question whether all of them leave nothing as it is. Multipliers do. They can
do no worse than to make of nothing an undefined number, and counters read that as zero
(`Bounty.gold_eq_zero`).

All relics do so but one. The crown adds five gold for every combo, kill or not, and the relics
that were acquired after it find that gold and raise it further (`Relics.crownGold`). The main
statement, `Game.pays_alive`, says what a turn pays in any game if the monster lives on: what the
crown makes of the combos, and nothing at all without the crown or without combos.
-/

namespace Arithmancy

/-! ## Nothing, multiplied -/

namespace Binary64

open Float.Model (UnpackedFloat)
open Float.Model.UnpackedFloat

/-- **Nothing**: zero, of either sign, or what is undefined. -/
inductive Nothing : UnpackedFloat → Prop where
  | zero (s : Sign) : Nothing (.zero s)
  | undefined : Nothing .notANumber

theorem Nothing.pack {u : UnpackedFloat} (h : Nothing u) :
    Nothing (Float.Model.pack u).unpack := by
  cases h with
  | zero s =>
    cases s with
    | positive => exact .zero .positive
    | negative => exact .zero .negative
  | undefined => exact .undefined

/-- **Nothing times anything** is nothing. -/
theorem Nothing.mul {u : UnpackedFloat} (h : Nothing u) (v : UnpackedFloat) :
    Nothing (mul .binary64 u v) := by
  cases h with
  | zero s =>
    cases v with
    | finite t _ _ _ | zero t => exact .zero (s * t)
    | infinity _ | notANumber => exact .undefined
  | undefined => cases v <;> exact .undefined

/-- A number that amounts to nothing. -/
def IsNothing (x : Float) : Prop := Nothing x.toModel.unpack

theorem isNothing_zero : IsNothing 0 := .zero .positive

theorem IsNothing.mul {x : Float} (h : IsNothing x) (y : Float) : IsNothing (x * y) :=
  (Nothing.mul h y.toModel.unpack).pack

/-- A number that amounts to nothing is zero, of either sign, or has no value. -/
theorem IsNothing.decode?_cases {x : Float} (h : IsNothing x) :
    (∃ negative, decode? x = some ⟨negative, 0, -1074⟩)
      ∨ decode? x = none ∧ ∀ y, ¬x < y ∧ ¬y < x := by
  unfold IsNothing at h
  unfold decode?
  generalize hx : x.toModel.unpack = u at h
  cases h with
  | zero s => exact .inl ⟨_, rfl⟩
  | undefined =>
    refine .inr ⟨rfl, fun y => ?_⟩
    rw [lt_def, lt_def, hx]
    cases y.toModel.unpack <;> exact ⟨Bool.false_ne_true, Bool.false_ne_true⟩

/-- Nothing has no fraction that could be dropped. -/
theorem IsNothing.floor_eq {x : Float} (h : IsNothing x) : floor x = x := by
  rcases h.decode?_cases with ⟨_, hdecode⟩ | ⟨hdecode, -⟩
  · rw [floor, hdecode]
    exact if_pos (isWhole_zero (-1074))
  · rw [floor, hdecode]

/-- **A counter reads nothing as zero.** -/
theorem IsNothing.toNat_eq_zero {x : Float} (h : IsNothing x) (high : Nat) :
    Scalar.toNat high x = 0 := by
  show (clamp 0 high x).toNat = 0
  rcases h.decode?_cases with ⟨negative, hdecode⟩ | ⟨hdecode, hunordered⟩
  · have htruncate : (⟨negative, 0, -1074⟩ : Finite).truncate = 0 := by
      have hwhole : (⟨negative, 0, -1074⟩ : Finite).whole = 0 := whole_zero (-1074)
      rw [Finite.truncate, hwhole]
      exact ite_self _
    rw [clamp, hdecode]
    dsimp only
    rw [htruncate]
    omega
  · rw [clamp, hdecode]
    dsimp only
    rw [if_neg (hunordered 0).1, if_neg (hunordered 0).2]
    rfl

end Binary64

open Binary64

namespace Bounty

/-- A multiplier makes nothing of nothing. -/
theorem isNothing_scale {gold : Float} (h : IsNothing gold) (multiplier : Float) :
    IsNothing (scale gold multiplier) := by
  unfold scale
  split
  · exact h
  · have hproduct := h.mul multiplier
    rw [show Scalar.floor (gold * multiplier) = gold * multiplier from hproduct.floor_eq]
    exact hproduct

/-- **Without a kill there is no gold** before relics adjust it, unless the hit is exact, and
whatever gold is multiplied by. -/
theorem gold_eq_zero {b : Bounty Float} (hdead : b.monsterDead = false) (hexact : b.exact = false)
    (balance : Balance Float) : b.gold balance = 0 := by
  have hbase : b.killGold balance = 0 := by
    rw [killGold, hdead]
    rfl
  unfold gold
  rw [hexact, hbase]
  exact (isNothing_scale (isNothing_scale (isNothing_scale isNothing_zero _) _) _).toNat_eq_zero _

end Bounty

/-! ## The crown -/

namespace Relics

/-- **What the crown makes of combos** where there is no other gold: five for each of them, and
what the relics that come after it make of that. -/
def crownGold : List Relic → Nat → Nat
  | [], _ => 0
  | .comboCrown :: relics, combos => rewardAll relics (5 * combos) ⟨combos, false⟩
  | _ :: relics, combos => crownGold relics combos

/-- **No relic but the crown makes gold out of nothing.** -/
theorem rewardAll_zero (relics : List Relic) (combos : Nat) :
    rewardAll relics 0 ⟨combos, false⟩ = crownGold relics combos := by
  induction relics with
  | nil => rfl
  | cons r relics ih =>
    rw [rewardAll, List.foldl_cons]
    cases r with
    | comboCrown =>
      rw [crownGold, ← Nat.zero_add (5 * combos)]
      rfl
    | echoChamber =>
      have hkeeps : Relic.onGoldGain .echoChamber 0 ⟨combos, false⟩ = 0 := ite_self _
      rw [hkeeps]
      exact ih
    | _ => exact ih

/-- No relic takes all gold away. -/
theorem rewardAll_pos {gold : Nat} (h : 0 < gold) (relics : List Relic) (reward : Reward) :
    0 < rewardAll relics gold reward := by
  refine List.foldlRecOn (motive := fun gold => 0 < gold) relics _ h fun gold hgold r _ => ?_
  cases r with
  | goldMagnet =>
    have hmax : 0 < maxCount32 := by decide
    show 0 < min (gold * 5 / 4) maxCount32
    omega
  | comboCrown => exact Nat.add_pos_left hgold _
  | sharpenedMind =>
    have hmax : 0 < maxCount32 := by decide
    show 0 < if reward.exact then min (gold * 3 / 2) maxCount32 else gold
    split <;> omega
  | echoChamber =>
    show 0 < if 0 < reward.combos then gold * 2 else gold
    split <;> omega
  | doubleOrNothing =>
    show 0 < if reward.exact then gold * 3 else gold
    split <;> omega
  | _ => exact hgold

theorem rewardAll_zero_of_no_combos (relics : List Relic) :
    rewardAll relics 0 ⟨0, false⟩ = 0 := by
  refine List.foldlRecOn (motive := fun gold => gold = 0) relics _ rfl fun gold hgold r _ => ?_
  rw [hgold]
  cases r <;> rfl

/-- **The crown pays nothing** exactly if there is no crown or no combo. -/
theorem crownGold_eq_zero_iff {relics : List Relic} {combos : Nat} :
    crownGold relics combos = 0 ↔ .comboCrown ∉ relics ∨ combos = 0 := by
  induction relics with
  | nil => exact iff_of_true rfl (.inl List.not_mem_nil)
  | cons r relics ih =>
    by_cases hr : r = .comboCrown
    · subst hr
      rw [or_iff_right fun h => h List.mem_cons_self, crownGold]
      refine ⟨fun hzero => ?_, ?_⟩
      · by_contra hcombos
        have hpos := rewardAll_pos (show 0 < 5 * combos by omega) relics ⟨combos, false⟩
        omega
      · rintro rfl
        exact rewardAll_zero_of_no_combos relics
    · have hskip : crownGold (r :: relics) combos = crownGold relics combos := by
        cases r <;> first | rfl | exact absurd rfl hr
      rw [hskip, ih, List.mem_cons, or_iff_right (Ne.symm hr)]

end Relics

/-! ## Turns -/

namespace Session

/-- **What a turn pays** that leaves the monster alive. -/
structure PaysAlive (run run' : Run Float) (r : Resolution Float) : Prop where
  /-- What the crown makes of the combos is earned, and nothing else. -/
  earned : r.goldEarned = Relics.crownGold run.player.relics r.combos.combos.length
  /-- That is nothing if there is no crown or no combo, and only then. -/
  nothing : r.goldEarned = 0 ↔ .comboCrown ∉ run.player.relics ∨ r.combos.combos = []
  /-- The player gets it, as far as counters reach. -/
  gold : run'.player.gold = min (run.player.gold + r.goldEarned) maxCount32
  /-- It is counted. -/
  tally : run'.progress.tally.goldEarned = run.progress.tally.goldEarned + r.goldEarned
  /-- Where nothing is earned, the player has what there was, and the count stays. -/
  unchanged : r.goldEarned = 0 → run'.player.gold = run.player.gold
    ∧ run'.progress.tally.goldEarned = run.progress.tally.goldEarned

variable (s : Session Float) {run : Run Float} (balance : Balance Float) (raw : Float)

/-- A turn that leaves the monster alive is no exact hit. -/
theorem isExact_eq_false_of_alive
    (halive : (s.resolve run balance raw).resolution.monsterDead = false) :
    (s.resolve run balance raw).resolution.outcome.isExact = false := by
  by_contra hexact
  rw [Bool.not_eq_false] at hexact
  have hdead := s.monsterDead_of_isLethal run balance raw zero_le_zero
    (Outcome.isLethal_of_isExact hexact)
  exact Bool.noConfusion (halive.symm.trans hdead)

theorem goldEarned_of_alive
    (halive : (s.resolve run balance raw).resolution.monsterDead = false) :
    (s.resolve run balance raw).resolution.goldEarned = Relics.crownGold run.player.relics
      (s.resolve run balance raw).resolution.combos.combos.length := by
  have hexact := s.isExact_eq_false_of_alive balance raw halive
  have hbounty : (s.bounty run.progress (s.judgementOf run balance raw)).gold balance = 0 :=
    Bounty.gold_eq_zero halive hexact balance
  show s.goldOf run balance (s.judgementOf run balance raw) = _
  unfold goldOf
  rw [hbounty, show (s.judgementOf run balance raw).outcome.isExact = false from hexact,
    Relics.onGoldGain, Relics.rewardAll_withHook]
  exact Relics.rewardAll_zero _ _

/-- **A turn that leaves the monster alive** pays what the crown makes of the combos. -/
theorem paysAlive_resolve (hgold : run.player.gold ≤ maxCount32)
    (halive : (s.resolve run balance raw).resolution.monsterDead = false) :
    PaysAlive run (s.resolve run balance raw).run (s.resolve run balance raw).resolution := by
  have hearned := s.goldEarned_of_alive balance raw halive
  have hresolve := s.gold_resolve run balance raw
  refine ⟨hearned, ?_, hresolve, rfl, fun hzero => ⟨?_, ?_⟩⟩
  · rw [hearned, Relics.crownGold_eq_zero_iff, List.length_eq_zero_iff]
  · rw [hresolve, hzero]
    exact Nat.min_eq_left hgold
  · rw [s.progress_resolve]
    show _ + (s.resolve run balance raw).resolution.goldEarned = _
    rw [hzero]
    rfl

end Session

/-! ## Games -/

namespace Game

variable {g : Game Float}

/-- **No kill, no gold**, except for the crown. In every game that is reached, from whatever
settings, and for all relics in any order, a turn that leaves the monster alive pays what the
crown makes of the combos. Without the crown or without combos, it pays nothing, and the player's
gold stays as it was, and so does the count of what was earned. -/
theorem pays_alive (hgold : g.run.player.gold ≤ maxCount32) (moves : List (Move Float))
    {r : Resolution Float} (hr : (g.after moves).submit.answer = .ok r)
    (halive : r.monsterDead = false) :
    Session.PaysAlive (g.after moves).run (g.after moves).submit.game.run r := by
  obtain ⟨s, -, hs, -⟩ := exists_report_of_isOk (g := g.after moves) (by rw [hr]; rfl)
  obtain ⟨t, ht, rfl, hgame⟩ := exists_turn_of_submit hs hr
  obtain ⟨raw, -, rfl⟩ := Session.submit_eq_ok_iff.mp ht
  rw [hgame]
  exact s.paysAlive_resolve _ raw (gold_after_le hgold moves) halive

/-- The moves of a player who is about to strike at a rat with one die, which is a combo. -/
def nakedStrike (relics : List Relic) : List (Move Float) :=
  relics.map .grantRelic ++ [.startCombat (.monster "rat"), .placeDie ⟨0⟩]

/-- A player without the crown earns nothing for a combo that leaves the rat alive. -/
theorem pays_alive_rat :
    ∃ (g : Game Float) (r : Resolution Float), Game.new .standard .builtIn = .ok g
      ∧ g.run.player.gold ≤ maxCount32
      ∧ (g.after (nakedStrike [.goldMagnet, .echoChamber])).submit.answer = .ok r
      ∧ r.monsterDead = false ∧ r.combos.combos = [.noOperators]
      ∧ Session.PaysAlive (g.after (nakedStrike [.goldMagnet, .echoChamber])).run
        (g.after (nakedStrike [.goldMagnet, .echoChamber])).submit.game.run r := by
  obtain ⟨g, hnew, hgold, haccepted, hreport⟩ : ∃ g : Game Float,
      Game.new .standard .builtIn = .ok g ∧ g.run.player.gold ≤ maxCount32
        ∧ (g.after (nakedStrike [.goldMagnet, .echoChamber])).submit.answer.isOk = true
        ∧ ∀ r ∈ (g.after (nakedStrike [.goldMagnet, .echoChamber])).submit.answer.toOption,
          r.monsterDead = false ∧ r.combos.combos = [.noOperators] :=
    ⟨_, rfl, by decide +kernel⟩
  obtain ⟨-, r, -, hr⟩ := exists_report_of_isOk haccepted
  obtain ⟨halive, hcombos⟩ := hreport r (by rw [hr]; rfl)
  exact ⟨g, r, hnew, hgold, hr, halive, hcombos, pays_alive hgold _ hr halive⟩

/-- **The crown pays without a kill**: five gold for a combo, although the rat lives on. -/
theorem crown_pays_alive :
    ∃ g : Game Float, Game.new .standard .builtIn = .ok g
      ∧ (g.after (nakedStrike [.comboCrown])).submit.answer.toOption.any
          (fun r => !r.monsterDead && r.combos.combos == [.noOperators] && r.goldEarned == 5)
        = true
      ∧ (g.after (nakedStrike [.comboCrown])).run.player.gold = 50
      ∧ (g.after (nakedStrike [.comboCrown])).submit.game.run.player.gold = 55
      ∧ (g.after (nakedStrike [.comboCrown])).run.progress.tally.goldEarned = 0
      ∧ (g.after (nakedStrike [.comboCrown])).submit.game.run.progress.tally.goldEarned = 5 :=
  ⟨_, rfl, by decide +kernel⟩

end Game

end Arithmancy
