import Arithmancy.Run

/-!
# What the player keeps

Hit points and gold come and go. The hand of a player never changes in the course of an
encounter, and relics are lost only to a rescue: a relic that is acquired is added to
the others, and a reroll takes none away.
-/

namespace Arithmancy

namespace Player

variable {p p' : Player}

/-- **What no relic changes on a reroll**, a reroll does not change. -/
theorem onReroll_keeps {β : Type} (f : Player → β) (h : ∀ r p, f (Relic.onReroll r p) = f p)
    (p : Player) : f p.onReroll = f p :=
  List.foldlRecOn (motive := fun q => f q = f p) _ _ rfl fun q hq r _ => (h r q).trans hq

theorem hand_onReroll (p : Player) : p.onReroll.hand = p.hand :=
  onReroll_keeps Player.hand (fun r _ => by cases r <;> rfl) p

theorem relics_onReroll (p : Player) : p.onReroll.relics = p.relics :=
  onReroll_keeps Player.relics (fun r _ => by cases r <;> rfl) p

theorem hand_onPickup (p : Player) (r : Relic) : (r.onPickup p).hand = p.hand := by
  cases r <;> rfl

theorem relics_onPickup (p : Player) (r : Relic) : (r.onPickup p).relics = p.relics := by
  cases r <;> rfl

theorem hasRelic_eq_false_iff {r : Relic} : p.hasRelic r = false ↔ r ∉ p.relics := by
  rw [hasRelic, ← Bool.not_eq_true, List.contains_iff_mem]

/-- **A relic that is acquired** is a new one, and it becomes the last. -/
theorem of_addRelic {r : Relic} (h : p.addRelic r = .ok p') :
    p.hasRelic r = false ∧ p'.hand = p.hand ∧ p'.relics = p.relics ++ [r] := by
  unfold addRelic at h
  split at h
  · cases h
  · next hnew =>
    refine ⟨Bool.not_eq_true _ ▸ hnew, ?_⟩
    rw [← Except.ok.inj h]
    split
    · exact ⟨hand_onPickup _ _, relics_onPickup _ _⟩
    · exact ⟨rfl, rfl⟩

/-- A relic that is acquired is counted once. -/
theorem toNat_hasRelic_addRelic {r : Relic} (h : p.addRelic r = .ok p') (q : Relic) :
    (p'.hasRelic q).toNat = (p.hasRelic q).toNat + (r == q).toNat := by
  obtain ⟨hnew, -, hrelics⟩ := of_addRelic h
  have howned : p'.hasRelic q = (p.hasRelic q || r == q) := by
    rw [hasRelic, hrelics, Bool.eq_iff_iff, Bool.or_eq_true, List.contains_iff_mem,
      List.mem_append, List.mem_singleton, hasRelic, List.contains_iff_mem, beq_iff_eq, eq_comm]
  by_cases hq : r = q
  · subst hq
    rw [howned, hnew, beq_self_eq_true]
    rfl
  · rw [howned, beq_eq_false_iff_ne.mpr hq, Bool.or_false]
    rfl

/-- A relic that is not owned can be acquired. -/
theorem exists_addRelic {r : Relic} (h : r ∉ p.relics) : ∃ p', p.addRelic r = .ok p' := by
  unfold addRelic
  rw [hasRelic_eq_false_iff.mpr h]
  exact ⟨_, rfl⟩

end Player

end Arithmancy
