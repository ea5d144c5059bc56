import Mathlib.Algebra.Order.Ring.Rat
import Mathlib.Tactic.Linarith
import Arithmancy.Number.Exact
import Arithmancy.Proofs.Encounter.Spoils
import Arithmancy.Proofs.Encounter.Verdicts

/-!
# What a turn leaves of the monster

Numbers are read exactly here, whatever roots, logarithms and powers are. A lethal hit leaves
the monster no hit points, a blocked one leaves it all of them, and a result that falls short
wounds it: what is left is the number to hit less the wound, rounded up. A wound is an integer,
and so every wound that deserves the name leaves less than there was.

But a result that is not positive wounds nobody, and what is left is still rounded up. Where a
condition has given the number to hit a fraction, such a turn **rounds up** the hit points of
the monster instead of reducing them (`Resolution.RoundsUp`). The main statement,
`Session.monsterHp_resolve`, says that no other turn gives hit points back, and that these
give back no more than the fraction that is missing.
-/

namespace Arithmancy

/-! ## Exact numbers -/

namespace Exact

/-- **A wound of at least one** leaves no more than there was, even rounded up. -/
theorem ceil_sub_le {hp : Rat} {n : Int} (hn : 0 < n) : ((hp - n).ceil : Rat) ≤ hp := by
  have hone : (1 : Rat) ≤ n := by exact_mod_cast hn
  have hceil := Rat.ceil_lt (x := hp - n)
  linarith

theorem ceil_nonneg {x : Rat} (h : 0 ≤ x) : (0 : Rat) ≤ (x.ceil : Rat) := h.trans Rat.le_ceil

variable [Operations]

theorem positivePart_eq (x : Rat) : Scalar.positivePart x = max x 0 := by
  show (if 0 < x then x else 0) = max x 0
  split
  · next h => exact (max_eq_left h.le).symm
  · next h => exact (max_eq_right (not_lt.mp h)).symm

theorem abs_eq (x : Rat) : Scalar.abs x = |x| := by
  show (if x < 0 then -x else x) = |x|
  split
  · next h => exact (abs_of_neg h).symm
  · next h => exact (abs_of_nonneg (not_lt.mp h)).symm

theorem isInteger_iff {x : Rat} : Scalar.isInteger x = true ↔ ∃ n : Int, x = n := by
  show ((x.floor : Rat) == x) = true ↔ _
  rw [beq_iff_eq]
  constructor
  · intro h
    exact ⟨x.floor, h.symm⟩
  · rintro ⟨n, rfl⟩
    rw [Rat.floor_intCast]

/-- What is not an integer lies below the integer it is rounded up to. -/
theorem le_ceil_iff {x : Rat} : (x.ceil : Rat) ≤ x ↔ Scalar.isInteger x = true := by
  rw [isInteger_iff]
  constructor
  · intro h
    exact ⟨x.ceil, le_antisymm Rat.le_ceil h⟩
  · rintro ⟨n, rfl⟩
    rw [Rat.ceil_intCast]

theorem ofNat_nonneg (n : Nat) : (0 : Rat) ≤ Scalar.ofNat n := by
  show (0 : Rat) ≤ ((n : Int) : Rat)
  exact_mod_cast n.zero_le

theorem ofNat_pos {n : Nat} (h : 0 < n) : (0 : Rat) < Scalar.ofNat n := by
  show (0 : Rat) < ((n : Int) : Rat)
  exact_mod_cast h

end Exact

/-! ## Wounds -/

variable [Exact.Operations]

namespace DamageRules

variable {rules : DamageRules Rat} {conditions : List Condition} {result target : Rat}

/-- A result that neither hits nor exceeds the target lies below it. -/
theorem le_of_isOver_eq_false (hexact : rules.isExact result target = false)
    (hover : rules.isOver result target = false) : result ≤ target := by
  rw [isOver, hexact] at hover
  by_contra hlt
  simp [not_le.mp hlt] at hover

/-- Unless damage is doubled, a wound is the result rounded up. -/
theorem wound_eq_ceil (hplain : .glassCannon ∉ conditions) (result : Rat) :
    wound conditions result = (result.ceil : Rat) :=
  if_neg fun hmem => hplain (List.contains_iff_mem.mp hmem)

theorem exists_wound (conditions : List Condition) (result : Rat) :
    ∃ n : Int, wound conditions result = n := by
  unfold wound
  split <;> exact ⟨_, rfl⟩

/-- **The wound of a result that falls short** is an integer. -/
theorem exists_dealt_judge (h : (rules.judge conditions result target).isUnderkill = true) :
    ∃ n : Int, (rules.judge conditions result target).dealt = n := by
  have hlands := rules.lands_judge conditions result target
  generalize rules.judge conditions result target = o at h hlands ⊢
  cases hlands with
  | underkill _ _ _ => exact exists_wound conditions result
  | _ => cases h

end DamageRules

/-- A turn **rounds up** the hit points of the monster if the result falls short and wounds
nobody, and the number to hit has a fraction. -/
def Resolution.RoundsUp (r : Resolution Rat) : Prop :=
  r.outcome.isUnderkill = true ∧ r.outcome.dealt ≤ 0 ∧ Scalar.isInteger r.target = false

namespace Session

variable (s : Session Rat) (run : Run Rat) (balance : Balance Rat) (raw : Rat)

theorem exists_dealt_judgementOf
    (h : (s.judgementOf run balance raw).outcome.isUnderkill = true) :
    ∃ n : Int, (s.judgementOf run balance raw).outcome.dealt = n := by
  have houtcome : (s.judgementOf run balance raw).outcome = _ :=
    s.outcome_of_isUnderkill_resolve run balance raw h
  rw [houtcome] at h ⊢
  exact DamageRules.exists_dealt_judge h

/-- **What a turn leaves of the monster** is no less than nothing, and no more than there was
unless the turn rounds the hit points up. -/
theorem monsterHp_resolve (hnonneg : 0 ≤ s.monster.hp) :
    0 ≤ (s.resolve run balance raw).resolution.monsterHp
      ∧ ((s.resolve run balance raw).resolution.monsterHp ≤ s.monster.hp
        ↔ ¬(s.resolve run balance raw).resolution.RoundsUp)
      ∧ ((s.resolve run balance raw).resolution.RoundsUp →
        (s.resolve run balance raw).resolution.monsterHp = Scalar.ceil s.monster.hp) := by
  have hleft : (s.resolve run balance raw).resolution.monsterHp
      = max (s.judgementOf run balance raw).remainder 0 := Exact.positivePart_eq _
  have hrounds : (s.resolve run balance raw).resolution.RoundsUp
      ↔ (s.judgementOf run balance raw).outcome.isUnderkill = true
        ∧ (s.judgementOf run balance raw).outcome.dealt ≤ 0
        ∧ Scalar.isInteger s.monster.hp = false := Iff.rfl
  have hdealt := s.exists_dealt_judgementOf run balance raw
  rw [hleft, hrounds]
  refine ⟨le_max_right _ _, ?_⟩
  rcases (s.judgementOf run balance raw).remainder_cases with
    ⟨hunderkill, hremainder⟩ | ⟨hunderkill, hremainder⟩
  · obtain ⟨n, hn⟩ := hdealt hunderkill
    have hceil : (s.judgementOf run balance raw).remainder
        = ((s.monster.hp - max (n : Rat) 0).ceil : Rat) := by
      rw [hremainder, Exact.positivePart_eq, hn]
      rfl
    rw [hceil, hn, hunderkill]
    rcases lt_or_ge 0 n with hpos | hneg
    · -- a wound that deserves the name
      have hcast : (0 : Rat) < n := by exact_mod_cast hpos
      rw [max_eq_left hcast.le]
      refine ⟨iff_of_true (max_le (Exact.ceil_sub_le hpos) hnonneg) ?_, ?_⟩
      · exact fun h => absurd h.2.1 (not_le.mpr hcast)
      · exact fun h => absurd h.2.1 (not_le.mpr hcast)
    · -- nothing is taken away, and what there was is rounded up
      have hcast : (n : Rat) ≤ 0 := by exact_mod_cast hneg
      rw [max_eq_right hcast, sub_zero, max_eq_left (Exact.ceil_nonneg hnonneg)]
      refine ⟨?_, fun _ => rfl⟩
      rw [Exact.le_ceil_iff]
      simp [hcast]
  · rw [hunderkill]
    refine ⟨iff_of_true ?_ (fun h => nomatch h.1), fun h => nomatch h.1⟩
    rcases hremainder with hzero | hkept
    · rw [hzero]
      exact max_le hnonneg hnonneg
    · rw [hkept]
      exact max_le le_rfl hnonneg

end Session

end Arithmancy
