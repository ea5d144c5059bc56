import Arithmancy.Proofs.Relic.Passes
import Arithmancy.Run

/-!
# Relics that stand by

Which hooks a relic declares is written in the catalog; what it does at a hook is written
elsewhere. A pass visits only the relics that declare its hook, so a relic that forgot to declare
one would never be asked, and nobody would be told. This module says that none forgets any: at a
hook that it does not declare, a relic leaves everything as it finds it, and draws nothing
(`Relic.standsBy_of_hasHook_eq_false`).

So it makes no difference whether such relics are visited. The main statement,
`Relics.asIfAll`, says this of every pass, whatever relics there are and in whatever order, and of
a relic that is acquired.
-/

namespace Arithmancy

/-! ## One relic -/

/-- **A relic stands by at a hook**: what it does there leaves everything as it finds it, any
source of chance included. -/
def Relic.StandsBy (r : Relic) : Hook → Prop
  | .pickup => ∀ p, r.onPickup p = p
  | .combatStart => ∀ {σ α : Type} [Scalar α] [Source σ α] (deal : Deal) (s : σ),
    r.onCombatStart deal s = (deal, s)
  | .roll => ∀ {σ α : Type} [Scalar α] [Source σ α] (d : Die) (s : σ), r.onRoll d s = (d, s)
  | .evaluate => ∀ {α : Type} [Scalar α] (v : Verdict α) a, r.onEvaluate v a = a
  | .takeDamage => ∀ damage memo, r.onTakeDamage damage memo = (damage, memo)
  | .lethalCheck => r.onLethalCheck = none
  | .goldGain => ∀ gold reward, r.onGoldGain gold reward = gold
  | .combatEnd => ∀ victory p, r.onCombatEnd victory p = p
  | .reroll => ∀ p, r.onReroll p = p
  | .passive => r.cardUses = 1

/-- **A relic stands by at every hook that it does not declare.** -/
theorem Relic.standsBy_of_hasHook_eq_false {h : Hook} {r : Relic} (hh : r.hasHook h = false) :
    r.StandsBy h := by
  cases h with
  | pickup | reroll => cases r <;> first | exact fun _ => rfl | cases hh
  | lethalCheck | passive => cases r <;> first | rfl | cases hh
  | _ => cases r <;> first | exact fun _ _ => rfl | cases hh

/-! ## All relics -/

namespace Relics

/-- What leaves every member of a list alone leaves the list alone, and draws nothing. -/
theorem mapDraws_eq_self {σ β : Type} {f : β → σ → β × σ} (h : ∀ b s, f b s = (b, s))
    (items : List β) (s : σ) : Source.mapDraws f items s = (items, s) := by
  induction items generalizing s with
  | nil => rfl
  | cons b items ih =>
    rw [Source.mapDraws, h b s]
    dsimp only
    rw [ih s]

/-- A relic that stands by leaves all dice of a roll alone. -/
theorem rollOne_eq_self {σ α : Type} [Scalar α] [Source σ α] {r : Relic}
    (h : r.StandsBy .roll) (rolled : List DieId) (dice : List Die) (s : σ) :
    rollOne rolled r dice s = (dice, s) :=
  mapDraws_eq_self (fun d s => by rw [h d s, ite_self]) dice s

/-- **Relics that stand by can be skipped** in a pass at a hook. -/
theorem foldl_withHook {β : Type} {h : Hook} {f : β → Relic → β}
    (hskip : ∀ r, r.StandsBy h → ∀ x, f x r = x) (relics : List Relic) (x : β) :
    (withHook h relics).foldl f x = relics.foldl f x :=
  foldl_filter_eq (P := fun _ => True) (fun _ _ _ => trivial)
    (fun x r _ hr => hskip r (Relic.standsBy_of_hasHook_eq_false hr) x) relics trivial

/-- **A result is judged** by the relics that adjust any. -/
theorem adjustAll_withHook {α : Type} [Scalar α] (relics : List Relic) (v : Verdict α) :
    adjustAll (withHook .evaluate relics) v = adjustAll relics v :=
  foldl_withHook (h := .evaluate) (fun _ hr a => hr v a) relics _

/-- **A hit is softened** by the relics that soften any. -/
theorem absorbAll_withHook (relics : List Relic) (damage : Nat) (memo : RelicMemo) :
    absorbAll (withHook .takeDamage relics) damage memo = absorbAll relics damage memo :=
  foldl_withHook (h := .takeDamage) (fun _ hr x => hr x.1 x.2) relics _

/-- **A reward is adjusted** by the relics that adjust any. -/
theorem rewardAll_withHook (relics : List Relic) (gold : Nat) (reward : Reward) :
    rewardAll (withHook .goldGain relics) gold reward = rewardAll relics gold reward :=
  foldl_withHook (h := .goldGain) (fun _ hr x => hr x reward) relics _

/-- **The relic that saves the player** is found among those that can save anybody. -/
theorem rescueAll?_withHook (relics : List Relic) :
    rescueAll? (withHook .lethalCheck relics) = rescueAll? relics := by
  induction relics with
  | nil => rfl
  | cons r relics ih =>
    unfold withHook rescueAll? at ih ⊢
    cases hr : r.hasHook .lethalCheck with
    | true => rw [List.filter_cons_of_pos hr, List.findSome?_cons, List.findSome?_cons, ih]
    | false =>
      have hnone : r.onLethalCheck = none := Relic.standsBy_of_hasHook_eq_false hr
      rw [List.filter_cons_of_neg (Bool.eq_false_iff.mp hr), List.findSome?_cons, hnone]
      exact ih

theorem cardUsesAll_cons (r : Relic) (relics : List Relic) :
    cardUsesAll (r :: relics) = max r.cardUses (cardUsesAll relics) := by
  have hone : 1 ≤ r.cardUses := by cases r <;> decide
  rw [cardUsesAll, cardUsesAll, List.map_cons, List.max?_cons]
  cases (relics.map Relic.cardUses).max? with
  | none => exact (Nat.max_eq_left hone).symm
  | some n => rfl

/-- A card can be placed once, whatever the relics. -/
theorem one_le_cardUsesAll (relics : List Relic) : 1 ≤ cardUsesAll relics := by
  induction relics with
  | nil => exact Nat.le_refl 1
  | cons r relics ih =>
    rw [cardUsesAll_cons]
    exact Nat.le_trans ih (Nat.le_max_right _ _)

/-- **The most uses of a card** are granted by a relic that grants any. -/
theorem cardUsesAll_withHook (relics : List Relic) :
    cardUsesAll (withHook .passive relics) = cardUsesAll relics := by
  induction relics with
  | nil => rfl
  | cons r relics ih =>
    unfold withHook at ih ⊢
    cases hr : r.hasHook .passive with
    | true => rw [List.filter_cons_of_pos hr, cardUsesAll_cons, cardUsesAll_cons, ih]
    | false =>
      have hone : r.cardUses = 1 := Relic.standsBy_of_hasHook_eq_false hr
      rw [List.filter_cons_of_neg (Bool.eq_false_iff.mp hr), cardUsesAll_cons, hone, ih]
      exact (Nat.max_eq_right (one_le_cardUsesAll relics)).symm

/-- **All passes come to what they would if every relic took its turn**, whatever the source of
chance, and so does the acquisition of a relic. -/
structure AsIfAll (relics : List Relic) : Prop where
  /-- When a tray is dealt. -/
  deal : ∀ {σ α : Type} [Scalar α] [Source σ α] deal (s : σ),
    onCombatStart relics deal s = dealAll relics deal s
  /-- When dice are rolled. -/
  roll : ∀ {σ α : Type} [Scalar α] [Source σ α] dice rolled (s : σ),
    onRoll relics dice rolled s = rollAll relics dice rolled s
  /-- When a result is judged. -/
  judge : ∀ {α : Type} [Scalar α] (v : Verdict α) memo, onEvaluate relics v memo
    = (appraise (adjustAll relics v), { memo with evaluations := memo.evaluations + 1 })
  /-- When the player is hit. -/
  hit : ∀ damage memo, onTakeDamage relics damage memo = absorbAll relics damage memo
  /-- When the player would die. -/
  rescue : rescue? relics = rescueAll? relics
  /-- When gold is earned. -/
  reward : ∀ gold reward, onGoldGain relics gold reward = rewardAll relics gold reward
  /-- When a card is placed. -/
  cards : cardUses relics = cardUsesAll relics
  /-- When a combat is over. -/
  conclude : ∀ p : Player, p.relics = relics → ∀ victory,
    p.onCombatEnd victory = concludeAll relics victory p
  /-- When dice are rerolled. -/
  refresh : ∀ p : Player, p.relics = relics → p.onReroll = refreshAll relics p
  /-- When a relic is acquired beside them. -/
  pickup : ∀ p : Player, p.relics = relics → ∀ r, p.addRelic r
    = if p.hasRelic r then .error (.duplicateRelic r)
      else .ok (r.onPickup { p with relics := relics ++ [r] })

/-- **To skip the relics that do not declare a hook changes nothing**: neither values nor dice, nor
what is remembered, nor the player, nor what is drawn. This holds for all relics in any order, and
if some are owned more than once. -/
theorem asIfAll (relics : List Relic) : AsIfAll relics := by
  refine ⟨fun deal s => ?_, fun dice rolled s => ?_, fun v memo => ?_, absorbAll_withHook relics,
    rescueAll?_withHook relics, rewardAll_withHook relics, cardUsesAll_withHook relics, ?_, ?_, ?_⟩
  · exact foldl_withHook (h := .combatStart) (fun _ hr x => hr x.1 x.2) relics _
  · exact foldl_withHook (h := .roll) (fun _ hr x => rollOne_eq_self hr rolled x.1 x.2) relics _
  · exact congrArg (fun a => (appraise a, _)) (adjustAll_withHook relics v)
  · rintro p rfl victory
    exact foldl_withHook (h := .combatEnd) (fun _ hr p => hr victory p) p.relics p
  · rintro p rfl
    exact foldl_withHook (h := .reroll) (fun _ hr p => hr p) p.relics p
  · rintro p rfl r
    unfold Player.addRelic
    split
    · rfl
    · refine congrArg Except.ok ?_
      split
      · rfl
      · next hr =>
        rw [Bool.not_eq_true] at hr
        exact (Relic.standsBy_of_hasHook_eq_false hr _).symm

end Relics

end Arithmancy
