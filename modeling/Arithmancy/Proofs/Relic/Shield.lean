import Arithmancy.Encounter.Turn
import Arithmancy.Proofs.Relic.Bystanders

/-!
# The shield

Three relics take part when the player is hit: one takes two points off, one doubles what it finds,
and the shield leaves nothing of the first hit in a combat. They do so in the order in which they
were acquired, and that order matters in general. It does not matter to the shield. Nothing stays
nothing when it is doubled or when two points are taken off, so a hit that the shield has taken
comes to nothing wherever the shield stands (`Relics.absorbAll_of_unused`). Once it is used, it
leaves every hit as it finds it, and then the player takes what would be taken without it
(`Relics.absorbAll_of_used`).

Only the shield remembers anything of hits, namely that it is used.
-/

namespace Arithmancy

/-- All relics but the shield, in their order. -/
def Relics.withoutShield (relics : List Relic) : List Relic := relics.filter (· != .rubberShield)

namespace Relic

/-- No other relic remembers anything of a hit. -/
theorem onTakeDamage_memo_of_ne {r : Relic} (h : r ≠ rubberShield) (damage : Nat)
    (memo : RelicMemo) : (r.onTakeDamage damage memo).2 = memo := by
  cases r <;> first | rfl | exact absurd rfl h

/-- **Nothing stays nothing**, whichever relic it is passed to. -/
theorem onTakeDamage_zero (r : Relic) (memo : RelicMemo) : (r.onTakeDamage 0 memo).1 = 0 := by
  cases r with
  | rubberShield => exact (apply_ite Prod.fst _ _ _).trans (ite_self 0)
  | _ => rfl

/-- A shield that is used leaves a hit as it finds it. -/
theorem onTakeDamage_rubberShield_of_used {memo : RelicMemo} (h : memo.shieldUsed = true)
    (damage : Nat) : rubberShield.onTakeDamage damage memo = (damage, memo) := if_pos h

/-- A shield that is not used leaves nothing of a hit. -/
theorem onTakeDamage_rubberShield_of_unused {memo : RelicMemo} (h : memo.shieldUsed = false)
    (damage : Nat) :
    rubberShield.onTakeDamage damage memo = (0, { memo with shieldUsed := true }) :=
  if_neg (by rw [h]; decide)

/-- What is remembered with a shield that is used stays. -/
theorem onTakeDamage_memo_of_used (r : Relic) {memo : RelicMemo} (h : memo.shieldUsed = true)
    (damage : Nat) : (r.onTakeDamage damage memo).2 = memo := by
  by_cases hr : r = rubberShield
  · subst hr
    rw [onTakeDamage_rubberShield_of_used h]
  · exact onTakeDamage_memo_of_ne hr damage memo

end Relic

namespace Relics

variable {relics : List Relic} {memo : RelicMemo}

/-- Nothing stays nothing, whichever relics it is passed to. -/
theorem absorbAll_zero (relics : List Relic) (memo : RelicMemo) :
    (absorbAll relics 0 memo).1 = 0 := by
  refine List.foldlRecOn (motive := fun x : Nat × RelicMemo => x.1 = 0) relics _ rfl ?_
  rintro ⟨damage, memo⟩ rfl r _
  exact r.onTakeDamage_zero memo

theorem absorbAll_memo_of_used (h : memo.shieldUsed = true) (relics : List Relic) (damage : Nat) :
    (absorbAll relics damage memo).2 = memo := by
  refine List.foldlRecOn (motive := fun x : Nat × RelicMemo => x.2 = memo) relics _ rfl ?_
  rintro ⟨damage, memo⟩ rfl r _
  exact r.onTakeDamage_memo_of_used h damage

/-- **A shield that is used** might as well not be there. -/
theorem absorbAll_of_used (h : memo.shieldUsed = true) (relics : List Relic) (damage : Nat) :
    absorbAll (withoutShield relics) damage memo = absorbAll relics damage memo := by
  refine foldl_filter_eq (P := fun x : Nat × RelicMemo => x.2.shieldUsed = true) ?_ ?_ relics h
  · rintro ⟨damage, memo⟩ r hused
    exact (congrArg RelicMemo.shieldUsed (r.onTakeDamage_memo_of_used hused damage)).trans hused
  · rintro ⟨damage, memo⟩ r hused hr
    obtain rfl : r = .rubberShield := by simpa using hr
    exact Relic.onTakeDamage_rubberShield_of_used hused damage

/-- **A shield that is not used** leaves nothing of a hit, and is used then. -/
theorem absorbAll_of_unused (howned : .rubberShield ∈ relics) (h : memo.shieldUsed = false)
    (damage : Nat) : absorbAll relics damage memo = (0, { memo with shieldUsed := true }) := by
  induction relics generalizing damage with
  | nil => cases howned
  | cons r relics ih =>
    show absorbAll relics (r.onTakeDamage damage memo).1 (r.onTakeDamage damage memo).2 = _
    by_cases hr : r = .rubberShield
    · subst hr
      rw [Relic.onTakeDamage_rubberShield_of_unused h]
      exact Prod.ext (absorbAll_zero relics _) (absorbAll_memo_of_used rfl relics 0)
    · rw [Relic.onTakeDamage_memo_of_ne hr]
      exact ih (List.mem_of_ne_of_mem (Ne.symm hr) howned) _

/-- Values are judged without asking the shield. -/
theorem adjustAll_withoutShield {α : Type} [Scalar α] (relics : List Relic) (v : Verdict α) :
    adjustAll (withoutShield relics) v = adjustAll relics v := by
  refine foldl_filter_eq (P := fun _ => True) (fun _ _ _ => trivial) (fun a r _ hr => ?_) relics
    trivial
  obtain rfl : r = .rubberShield := by simpa using hr
  rfl

end Relics

/-! ## A strike -/

section

variable {relics : List Relic} {memo : RelicMemo}

theorem soften_eq (relics : List Relic) (total : Nat) (memo : RelicMemo) :
    soften relics total memo
      = if 0 < total then Relics.absorbAll relics total memo else (total, memo) := by
  unfold soften
  rw [Relics.onTakeDamage, Relics.absorbAll_withHook]

/-- **A strike is softened by a shield that is used** as if it were not there. -/
theorem soften_of_used (h : memo.shieldUsed = true) (relics : List Relic) (total : Nat) :
    soften (Relics.withoutShield relics) total memo = soften relics total memo := by
  rw [soften_eq, soften_eq, Relics.absorbAll_of_used h]

/-- **A strike on a shield that is not used** takes nothing from the player, and uses the shield
if it shows anything. -/
theorem soften_of_unused (howned : .rubberShield ∈ relics) (h : memo.shieldUsed = false)
    (total : Nat) :
    soften relics total memo = (0, { memo with shieldUsed := decide (0 < total) }) := by
  rw [soften_eq]
  split
  · next hpos => rw [Relics.absorbAll_of_unused howned h, decide_eq_true hpos]
  · next hzero =>
    rw [decide_eq_false hzero, ← h, Nat.eq_zero_of_not_pos hzero]

/-- **The shield is used** by the first strike that shows anything, and stays so. -/
theorem shieldUsed_soften (howned : .rubberShield ∈ relics) (total : Nat) (memo : RelicMemo) :
    (soften relics total memo).2.shieldUsed = (memo.shieldUsed || decide (0 < total)) := by
  cases h : memo.shieldUsed with
  | true =>
    rw [soften_eq, Bool.true_or]
    split
    · rw [Relics.absorbAll_memo_of_used h, h]
    · exact h
  | false => rw [soften_of_unused howned h, Bool.false_or]

end

end Arithmancy
