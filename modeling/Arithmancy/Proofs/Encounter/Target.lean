import Mathlib
import Arithmancy.Proofs.Chance.Draws
import Arithmancy.Proofs.Encounter.Opening
import Arithmancy.Proofs.Encounter.Spoils
import Arithmancy.Proofs.Number.Arithmetic

/-!
# Targets are amounts

The hit points of a monster that is not dead are a finite floating-point number above zero, an
amount. They are drawn so (`Session.isAmount_of_start`, `Monster.isAmount_rerollTarget`): a
drawn target is a small integer, perhaps with a fraction. And a turn leaves them so or kills
the monster (`Session.isAmount_resolve`), whatever number its damage has come to: a difference
is never more than the amount it is taken from, so that it neither overflows nor is undefined.
-/

namespace Arithmancy

namespace Binary64

open Float.Model (UnpackedFloat)

/-- **An amount** is a finite number above zero. -/
def IsAmount (x : Float) : Prop := ∃ v, value? x = some v ∧ 0 < v

theorem value?_ofInt_zero : value? (Scalar.ofInt 0 : Float) = some 0 :=
  value?_ofNat (k := 0) (by decide)

theorem denotes_ofInt_zero : Denotes (0 : Float).toModel.unpack 0 :=
  value?_eq_some_iff.mp value?_ofInt_zero

theorem zero_le_zero : (0 : Float) ≤ 0 :=
  (le_iff value?_ofInt_zero value?_ofInt_zero).mpr (le_refl 0)

section

variable {x d : Float}

theorem IsAmount.pos (h : IsAmount x) : (0 : Float) < x := by
  obtain ⟨v, hv, hpos⟩ := h
  exact (lt_iff value?_ofInt_zero hv).mpr hpos

theorem IsAmount.ne_zero (h : IsAmount x) : ¬(x == (0 : Float)) = true := by
  obtain ⟨v, hv, hpos⟩ := h
  exact fun heq => hpos.ne' ((beq_iff hv value?_ofInt_zero).mp heq)

/-- What is not above zero is not found above it. -/
theorem not_pos_of_le_zero (h : x ≤ (0 : Float)) : ¬(0 : Float) < x := by
  intro hlt
  rcases value?_cases x with ⟨v, hv⟩ | hnan | ⟨s, hinfinity⟩
  · exact absurd ((le_iff hv value?_ofInt_zero).mp h)
      (not_le.mpr ((lt_iff value?_ofInt_zero hv).mp hlt))
  · rw [le_def, hnan] at h
    cases h
  · rw [le_def, hinfinity] at h
    rw [lt_def, hinfinity] at hlt
    cases s with
    | positive =>
      rw [denotes_ofInt_zero.posInfinity_compare] at h
      cases h
    | negative =>
      rw [denotes_ofInt_zero.compare_negInfinity] at hlt
      cases hlt

/-- The positive part of a number is finite and not negative, or it is infinite. -/
theorem positivePart_cases (d : Float) :
    (∃ w, value? (Scalar.positivePart d) = some w ∧ 0 ≤ w)
      ∨ (Scalar.positivePart d).toModel.unpack = .infinity .positive := by
  unfold Scalar.positivePart
  split
  · next hpos =>
    rcases value?_cases d with ⟨v, hv⟩ | hnan | ⟨s, hinfinity⟩
    · exact .inl ⟨v, hv, ((lt_iff value?_ofInt_zero hv).mp hpos).le⟩
    · have hlt := lt_def.mp hpos
      rw [hnan] at hlt
      cases hlt
    · cases s with
      | positive => exact .inr hinfinity
      | negative =>
        have hlt := lt_def.mp hpos
        rw [hinfinity] at hlt
        cases hlt
  · exact .inl ⟨0, value?_ofInt_zero, le_refl _⟩

/-- What is less than everything stays so when it is rounded up. -/
theorem unpack_ceil_negInfinity (h : x.toModel.unpack = .infinity .negative) :
    (ceil x).toModel.unpack = .infinity .negative := by
  have hneg : (-x).toModel.unpack = .infinity .positive := by
    show (Float.Model.pack x.toModel.unpack.neg).unpack = _
    rw [h]
    rfl
  have hdecode : decode? (-x) = none := by rw [decode?, hneg]
  have hfloor : floor (-x) = -x := by rw [floor, hdecode]
  rw [ceil, hfloor]
  show (Float.Model.pack (-x).toModel.unpack.neg).unpack = _
  rw [hneg]
  rfl

/-- **An amount that is diminished** and rounded up is an amount, or nothing is left of it. -/
theorem IsAmount.ceil_sub (h : IsAmount x) (d : Float) :
    IsAmount (ceil (x - Scalar.positivePart d))
      ∨ ceil (x - Scalar.positivePart d) ≤ (0 : Float) := by
  obtain ⟨v, hv, hpos⟩ := h
  rcases positivePart_cases d with ⟨w, hw, hnonneg⟩ | hinfinity
  · -- the difference lies between what is taken away, negated, and the amount itself
    obtain ⟨u, hu, -, -⟩ := (faithful_sub hv hw).within (value?_neg hw) hv
      (by linarith) (by linarith)
    have hceil := value?_ceil hu
    rcases lt_or_ge 0 ⌈u⌉ with hpos | hle
    · exact .inl ⟨_, hceil, by exact_mod_cast hpos⟩
    · exact .inr ((le_iff hceil value?_ofInt_zero).mpr (by exact_mod_cast hle))
  · right
    have hdifference : (x - Scalar.positivePart d).toModel.unpack = .infinity .negative := by
      show (Float.Model.pack (UnpackedFloat.sub .binary64 x.toModel.unpack
        (Scalar.positivePart d).toModel.unpack)).unpack = _
      rw [hinfinity]
      have hx := value?_eq_some_iff.mp hv
      have hsub : UnpackedFloat.sub .binary64 x.toModel.unpack (.infinity .positive)
          = .infinity .negative := by
        generalize x.toModel.unpack = u at hx
        cases hx <;> rfl
      rw [hsub]
      rfl
    exact negInfinity_le (unpack_ceil_negInfinity hdifference) value?_ofInt_zero

end

/-- A counter that is read off a number stops at its greatest value. -/
theorem toNat_le (high : Nat) (x : Float) : Scalar.toNat high x ≤ high := by
  have hclamp : clamp 0 high x ≤ high := by
    unfold clamp
    split
    · exact Int.max_le.mpr ⟨Int.natCast_nonneg high, Int.min_le_left _ _⟩
    · split
      · exact Int.natCast_nonneg high
      · split
        · exact Int.le_refl _
        · exact Int.natCast_nonneg high
  exact Int.toNat_le.mpr hclamp

theorem isAmount_ofNat {n : Nat} (hpos : 0 < n) (hlt : n < 2 ^ 53) :
    IsAmount (Scalar.ofNat n) :=
  ⟨n, value?_ofNat hlt, Nat.cast_pos.mpr hpos⟩

/-- **The fractions that a target can get** are one, two and three quarters. -/
theorem value?_decimalFractions : ∀ x ∈ (Session.decimalFractions : List Float),
    ∃ k : ℕ, 0 < k ∧ k < 4 ∧ value? x = some ((k : ℚ) / 4) := by
  have hquarter : decode? (0.25 : Float) = some ⟨false, 2 ^ 52, -54⟩ := by decide +kernel
  have hthree : decode? (0.75 : Float) = some ⟨false, 3 * 2 ^ 51, -53⟩ := by decide +kernel
  intro x hx
  rcases List.mem_cons.mp hx with rfl | hx
  · refine ⟨2, by decide, by decide, ?_⟩
    rw [value?_half]
    norm_num
  rcases List.mem_cons.mp hx with rfl | hx
  · refine ⟨1, by decide, by decide, ?_⟩
    rw [value?_of_decode? hquarter]
    norm_num [Finite.value]
  · obtain rfl := List.mem_singleton.mp hx
    refine ⟨3, by decide, by decide, ?_⟩
    rw [value?_of_decode? hthree]
    norm_num [Finite.value]

/-- **A number with quarters is exact**: as long as its quarters can be counted, nothing is
rounded when a fraction is added to an integer. -/
theorem value?_floor_add {n : Nat} (hlt : n + 1 < 2 ^ 51) {fraction : Float}
    (hmem : fraction ∈ (Session.decimalFractions : List Float)) :
    ∃ k : ℕ, 0 < k ∧ k < 4
      ∧ value? (floor (Scalar.ofNat n) + fraction) = some ((n : ℚ) + (k : ℚ) / 4) := by
  obtain ⟨k, hpos, hsmall, hk⟩ := value?_decimalFractions fraction hmem
  refine ⟨k, hpos, hsmall, ?_⟩
  have hfloor := value?_floor (value?_ofNat (k := n) (by omega))
  rw [Int.floor_natCast] at hfloor
  -- the sum is a number of quarters, and that is a floating-point number
  have hquarters : value? (dyadic (4 * n + k) (-2)) = some ((n : ℚ) + (k : ℚ) / 4) := by
    rw [value?_dyadic (by omega) (by decide) (by decide)]
    refine congrArg some ?_
    push_cast
    ring
  obtain ⟨v, hv, hlow, hhigh⟩ := (faithful_add hfloor hk).within hquarters hquarters
    (le_refl _) (le_refl _)
  have hexact : value? (floor (Scalar.ofNat n) + fraction) = some v := hv
  rw [hexact, le_antisymm hhigh hlow]

/-- A number with a fraction is an amount. -/
theorem isAmount_floor_add {n : Nat} (hlt : n + 1 < 2 ^ 51) {fraction : Float}
    (hmem : fraction ∈ (Session.decimalFractions : List Float)) :
    IsAmount (floor (Scalar.ofNat n) + fraction) := by
  obtain ⟨k, hpos, -, hvalue⟩ := value?_floor_add hlt hmem
  have hk : (0 : ℚ) < k := Nat.cast_pos.mpr hpos
  exact ⟨_, hvalue, by positivity⟩

end Binary64

open Binary64

/-! ## Targets that are drawn -/

namespace Monster

variable (g : Generator Float)

/-- **Targets are integers that floating-point numbers can count**, and so are their quarters. -/
theorem drawnHp_lt (template : Template) (floor : Nat) (modifiers : Modifiers Float) :
    (drawnHp template floor modifiers g).1 + 1 < 2 ^ 51 :=
  Nat.lt_of_le_of_lt
    (Nat.add_le_add_right (drawnHp_le
      (fun g' : Generator Float => (g'.nextInt_mem (show 0 < 3 by decide) (by decide)).2)
      (toNat_le maxCount32) template floor modifiers g) 1)
    (by norm_num [maxCount32])

/-- A target that is drawn anew is an integer. -/
theorem exists_natCast_rerollTarget (m : Monster Float) (floor : Nat)
    (modifiers : Modifiers Float) :
    ∃ n : ℕ, 5 ≤ n ∧ value? (m.rerollTarget floor modifiers g).1.hp = some (n : ℚ) := by
  refine ⟨_, le_scaledHp m.hpRange floor modifiers g, ?_⟩
  rw [hp_rerollTarget]
  exact value?_ofNat (Nat.lt_of_le_of_lt (scaledHp_le (toNat_le maxCount32) _ _ _ _)
    (by norm_num [maxCount32]))

theorem isAmount_rerollTarget (m : Monster Float) (floor : Nat) (modifiers : Modifiers Float) :
    IsAmount (m.rerollTarget floor modifiers g).1.hp := by
  obtain ⟨n, hn, hvalue⟩ := exists_natCast_rerollTarget g m floor modifiers
  exact ⟨n, hvalue, Nat.cast_pos.mpr (by omega)⟩

end Monster

namespace Session

theorem isAmount_of_start {run : Run Float} {bestiary : Bestiary} {challenge : Challenge}
    {s : Session Float} (h : start run bestiary challenge = .ok s) : IsAmount s.monster.hp := by
  obtain ⟨template, g, n, hn, hhp⟩ := hp_of_start h
  have hlow := Monster.le_drawnHp template run.progress.floor run.progress.modifiers g
  have hhigh := Monster.drawnHp_lt g template run.progress.floor run.progress.modifiers
  rw [← hn] at hlow hhigh
  have hpos : 0 < n := Nat.lt_of_lt_of_le (by decide) hlow
  rcases hhp with hplain | ⟨fraction, hmem, hfraction⟩
  · rw [hplain]
    exact isAmount_ofNat hpos (by omega)
  · rw [hfraction]
    exact isAmount_floor_add hhigh hmem

end Session

/-! ## What a turn leaves -/

theorem Binary64.positivePart_of_isAmount {x : Float} (h : IsAmount x) :
    Scalar.positivePart x = x := if_pos h.pos

/-- **What is left of a monster that is not dead** is an amount. -/
theorem Judgement.isAmount_remainder {j : Judgement Float} (h : IsAmount j.target)
    (halive : j.monsterDead = false) : IsAmount j.remainder := by
  have hnot : ¬j.remainder ≤ (0 : Float) := of_decide_eq_false halive
  rcases j.remainder_cases with ⟨-, hwound⟩ | ⟨-, hnothing | hall⟩
  · rcases h.ceil_sub j.outcome.dealt with hamount | hle
    · rw [hwound]
      exact hamount
    · exact absurd (hwound ▸ hle) hnot
  · exact absurd (hnothing ▸ zero_le_zero) hnot
  · rw [hall]
    exact h

namespace Session

variable (s : Session Float) (run : Run Float) (balance : Balance Float) (raw : Float)

/-- **A turn leaves an amount**, or the monster is dead. -/
theorem isAmount_resolve (h : IsAmount s.monster.hp)
    (halive : (s.resolve run balance raw).resolution.monsterDead = false) :
    IsAmount (s.resolve run balance raw).resolution.monsterHp := by
  have hremainder : IsAmount (s.judgementOf run balance raw).remainder :=
    Judgement.isAmount_remainder h halive
  rw [monsterHp_eq_positivePart, positivePart_of_isAmount hremainder]
  exact hremainder

/-- A monster that is dead has no hit points. -/
theorem monsterHp_of_monsterDead
    (hdead : (s.resolve run balance raw).resolution.monsterDead = true) :
    (s.resolve run balance raw).resolution.monsterHp = 0 :=
  if_neg (not_pos_of_le_zero (of_decide_eq_true hdead))

end Session

end Arithmancy
