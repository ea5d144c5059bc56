import Mathlib.Data.List.Nodup
import Arithmancy.Proofs.Player.Health

/-!
# Gold, dice and relics

Much is done to a player in the course of an encounter, and hardly anything of it touches
the player's belongings. Gold is only ever earned, and the pool of dice stays as it is. A
relic is acquired at the end of the list, once (`Player.nodup_addRelic`); and the only way to
lose one is to be saved by it, which is then reported as the rescue of the turn
(`Player.relics_suffer`).
-/

namespace Arithmancy

namespace Player

variable {p p' : Player}

/-! ## What is left alone -/

/-- **What no effect changes**, the effects that relics ask for do not change. -/
theorem affected_keeps {β : Type} (f : Player → β)
    (h : ∀ p effect, f (PlayerEffect.apply p effect) = f p) (p : Player)
    (effects : List PlayerEffect) : f (p.affected effects) = f p :=
  List.foldlRecOn (motive := fun q => f q = f p) _ _ rfl fun q hq effect _ => (h q effect).trans hq

theorem gold_affected (p : Player) (effects : List PlayerEffect) :
    (p.affected effects).gold = p.gold :=
  affected_keeps Player.gold (fun _ effect => by cases effect <;> rfl) p effects

theorem relics_affected (p : Player) (effects : List PlayerEffect) :
    (p.affected effects).relics = p.relics :=
  affected_keeps Player.relics (fun _ effect => by cases effect <;> rfl) p effects

/-- **What no relic changes at the end of a combat**, that end does not change. -/
theorem onCombatEnd_keeps {β : Type} (f : Player → β)
    (h : ∀ r victory p, f (Relic.onCombatEnd r victory p) = f p) (p : Player) (victory : Bool) :
    f (p.onCombatEnd victory) = f p :=
  List.foldlRecOn (motive := fun q => f q = f p) _ _ rfl fun q hq r _ => (h r victory q).trans hq

theorem gold_onCombatEnd (p : Player) (victory : Bool) : (p.onCombatEnd victory).gold = p.gold :=
  onCombatEnd_keeps Player.gold
    (fun r victory _ => by cases r <;> cases victory <;> rfl) p victory

theorem relics_onCombatEnd (p : Player) (victory : Bool) :
    (p.onCombatEnd victory).relics = p.relics :=
  onCombatEnd_keeps Player.relics
    (fun r victory _ => by cases r <;> cases victory <;> rfl) p victory

theorem gold_onReroll (p : Player) : p.onReroll.gold = p.gold :=
  onReroll_keeps Player.gold (fun r p => by cases r <;> rfl) p

/-! ## Relics that are acquired -/

theorem gold_onPickup (p : Player) (r : Relic) : (r.onPickup p).gold = p.gold := by
  cases r <;> rfl

theorem gold_addRelic {r : Relic} (h : p.addRelic r = .ok p') : p'.gold = p.gold := by
  unfold addRelic at h
  split at h
  · cases h
  · rw [← Except.ok.inj h]
    split
    · exact gold_onPickup _ _
    · rfl

/-- **No relic is owned twice**, since the one that is acquired is new. -/
theorem nodup_addRelic {r : Relic} (h : p.addRelic r = .ok p') (hnodup : p.relics.Nodup) :
    p'.relics.Nodup := by
  obtain ⟨hnew, -, hrelics⟩ := of_addRelic h
  rw [hrelics, ← List.concat_eq_append]
  exact hnodup.concat (hasRelic_eq_false_iff.mp hnew)

/-! ## Strikes -/

/-- **What no hit and no rescue changes**, a strike does not change. -/
theorem suffer_keeps {β : Type} (f : Player → β)
    (h : ∀ p hp relics, f { p with hp := hp, relics := relics } = f p) (p : Player)
    (relics : List Relic) (damage : Nat) : f (p.suffer relics damage).1 = f p := by
  rw [suffer_eq]
  split
  · exact h p _ p.relics
  · split
    · exact h p _ _
    · exact h p _ p.relics

theorem gold_suffer (p : Player) (relics : List Relic) (damage : Nat) :
    (p.suffer relics damage).1.gold = p.gold :=
  suffer_keeps Player.gold (fun _ _ _ => rfl) p relics damage

/-- The relics that are left if one of them may have been spent. -/
def relicsWithout (relics : List Relic) : Option Relic → List Relic
  | none => relics
  | some r => relics.filter (· != r)

/-- **The relic that saves the player** is lost, and no other. -/
theorem relics_suffer (p : Player) (relics : List Relic) (damage : Nat) :
    (p.suffer relics damage).1.relics
      = relicsWithout p.relics ((p.suffer relics damage).2.map (·.relic)) := by
  rw [suffer_eq]
  split
  · rfl
  · split <;> rfl

/-- What is left of different relics are different relics. -/
theorem nodup_relicsWithout {relics : List Relic} (h : relics.Nodup) (spent : Option Relic) :
    (relicsWithout relics spent).Nodup := by
  cases spent with
  | none => exact h
  | some r => exact h.filter _

/-- A relic that is spent was owned until then. -/
theorem toNat_contains_relicsWithout {relics : List Relic} {spent : Option Relic}
    (h : ∀ q, spent = some q → q ∈ relics) (r : Relic) :
    (relics.contains r).toNat
      = (spent == some r).toNat + ((relicsWithout relics spent).contains r).toNat := by
  cases spent with
  | none => exact (Nat.zero_add _).symm
  | some q =>
    have hleft : (relicsWithout relics (some q)).contains r = (relics.contains r && r != q) := by
      rw [relicsWithout, Bool.eq_iff_iff, Bool.and_eq_true, List.contains_iff_mem,
        List.contains_iff_mem, List.mem_filter]
    rw [hleft]
    by_cases hq : q = r
    · subst hq
      rw [List.contains_iff_mem.mpr (h q rfl), beq_self_eq_true, bne_self_eq_false]
      rfl
    · rw [bne_iff_ne.mpr (Ne.symm hq), Bool.and_true,
        beq_eq_false_iff_ne.mpr fun heq => hq (Option.some.inj heq)]
      exact (Nat.zero_add _).symm

/-! ## Dice and rerolls -/

theorem dicePool_onReroll (p : Player) : p.onReroll.dicePool = p.dicePool :=
  onReroll_keeps Player.dicePool (fun r _ => by cases r <;> rfl) p

theorem rerollsPerTurn_onReroll (p : Player) : p.onReroll.rerollsPerTurn = p.rerollsPerTurn :=
  onReroll_keeps Player.rerollsPerTurn (fun r _ => by cases r <;> rfl) p

theorem dicePool_addRelic {r : Relic} (h : p.addRelic r = .ok p') :
    p'.dicePool = p.dicePool := by
  unfold addRelic at h
  split at h
  · cases h
  · rw [← Except.ok.inj h]
    split
    · cases r <;> rfl
    · rfl

/-- **One relic grants a reroll** with every fresh tray, and it does so when it is acquired. -/
theorem rerollsPerTurn_addRelic {r : Relic} (h : p.addRelic r = .ok p') :
    p'.rerollsPerTurn = p.rerollsPerTurn + [r].count .loadedDice := by
  unfold addRelic at h
  split at h
  · cases h
  · rw [← Except.ok.inj h]
    cases r <;> rfl

end Player

end Arithmancy
