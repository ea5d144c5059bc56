import Mathlib
import Arithmancy.Combo
import Arithmancy.Proofs.Number.Arithmetic

/-!
# Combos multiply

Every combo multiplies gold by more than one. Their multipliers are multiplied, and the product
is rounded to two places; all this happens in floating-point numbers, and still what comes out
is a finite number above one (`ComboReport.exists_totalMultiplier`). Bounds are carried from the
first multiplier to the last division by what is known of rounding.
-/

namespace Arithmancy

namespace Binary64

/-- The least that a combo multiplies by, rounded down. -/
theorem value?_five_quarters : value? (1.25 : Float) = some (5 / 4) := by
  have hdecode : decode? (1.25 : Float) = some ⟨false, 5 * 2 ^ 50, -52⟩ := by decide +kernel
  rw [value?_of_decode? hdecode]
  norm_num [Finite.value]

/-- Powers of four are numbers, as far as they are needed. -/
theorem value?_four_pow {k : Nat} (hk : k ≤ 26) :
    value? (Float.ofNat (4 ^ k)) = some (4 ^ k : ℚ) := by
  have hlt : 4 ^ k < 2 ^ 53 := (Nat.pow_le_pow_right (by decide) hk).trans_lt (by norm_num)
  rw [value?_ofNat hlt]
  push_cast
  rfl

theorem within_multiplier (c : Combo) : Within (5 / 4) 4 (c.multiplier : Float) := by
  have hbounds : (1.25 : Float) ≤ c.multiplier ∧ (c.multiplier : Float) ≤ Float.ofNat 4 := by
    cases c <;> decide +kernel
  have hfour : value? (Float.ofNat 4) = some 4 := value?_ofNat (by decide)
  exact within_of_le value?_five_quarters hfour hbounds.1 hbounds.2

/-- **One more multiplier** makes a product greater, but not by more than four times. -/
theorem within_mul_multiplier {x : Float} {low : ℚ} {k : Nat} (hlow : 1 ≤ low)
    (hx : Within low (4 ^ k) x) (hk : k + 1 ≤ 26) (c : Combo) :
    Within (5 / 4) (4 ^ (k + 1)) (x * c.multiplier) := by
  obtain ⟨v, hv, hlv, hvh⟩ := hx
  obtain ⟨w, hw, hlw, hwh⟩ := within_multiplier c
  refine (faithful_mul hv hw).within value?_five_quarters (value?_four_pow hk) ?_ ?_
  · nlinarith
  · rw [pow_succ]
    exact mul_le_mul hvh hwh (by linarith) (by positivity)

theorem within_product (combos : List Combo) {x : Float} {k : Nat}
    (hx : Within (5 / 4) (4 ^ k) x) (hk : k + combos.length ≤ 26) :
    Within (5 / 4) (4 ^ (k + combos.length))
      (combos.foldl (fun acc c => acc * c.multiplier) x) := by
  induction combos generalizing x k with
  | nil => exact hx
  | cons c combos ih =>
    rw [List.length_cons] at hk ⊢
    rw [List.foldl_cons, show k + (combos.length + 1) = k + 1 + combos.length by omega]
    exact ih (within_mul_multiplier (by norm_num) hx (by omega) c) (by omega)

/-- A number above one and a quarter stays above when it is rounded to two places. -/
theorem within_roundTo {x : Float} (hx : Within (5 / 4) (4 ^ 11) x) :
    Within (5 / 4) (4 ^ 16) (Figures.roundTo x 2) := by
  obtain ⟨v, hv, hlow, hhigh⟩ := hx
  have hscale : value? (Scalar.powInt (10 : Float) 2) = some 100 := by
    have hdecode : decode? (Scalar.powInt (10 : Float) 2) = some ⟨false, 25 * 2 ^ 48, -46⟩ := by
      decide +kernel
    rw [value?_of_decode? hdecode]
    norm_num [Finite.value]
  have hleast : value? (Float.ofNat 125) = some 125 := value?_ofNat (by decide)
  obtain ⟨scaled, hscaled, hlow₁, hhigh₁⟩ := (faithful_mul hv hscale).within hleast
    (value?_four_pow (show 15 ≤ 26 by decide)) (by linarith)
    (by norm_num at hhigh ⊢; linarith)
  obtain ⟨raised, hraised, hlow₂, hhigh₂⟩ := (faithful_add hscaled value?_half).within hleast
    (value?_four_pow (show 16 ≤ 26 by decide)) (by linarith)
    (by norm_num at hhigh₁ ⊢; linarith)
  -- 125 is an integer, and so what is rounded down does not fall below it
  have hlow₃ : (125 : ℚ) ≤ ⌊raised⌋ := by
    exact_mod_cast Int.le_floor.mpr (show ((125 : ℤ) : ℚ) ≤ raised from hlow₂)
  have hhigh₃ : (⌊raised⌋ : ℚ) ≤ 4 ^ 16 := (Int.floor_le raised).trans hhigh₂
  refine (faithful_div (value?_floor hraised) hscale (by norm_num)).within value?_five_quarters
    (value?_four_pow (show 16 ≤ 26 by decide)) ?_ ?_
  · linarith
  · linarith

end Binary64

open Binary64

/-- **Combos that were found multiply by more than one.** -/
theorem ComboReport.exists_totalMultiplier {a : Attempt Float}
    (h : (ofAttempt a).isEmpty = false) :
    ∃ v, value? (ofAttempt a).totalMultiplier = some v ∧ 1 < v := by
  have hlength : ((Labelled.all : List Combo).filter (Combo.occursIn a)).length ≤ 10 :=
    List.length_filter_le _ _
  change ((Labelled.all : List Combo).filter (Combo.occursIn a)).isEmpty = false at h
  show ∃ v, value? (Figures.roundTo (((Labelled.all : List Combo).filter
    (Combo.occursIn a)).foldl (fun acc c => acc * c.multiplier) (1 : Float)) 2) = some v ∧ 1 < v
  generalize (Labelled.all : List Combo).filter (Combo.occursIn a) = combos at h hlength
  cases combos with
  | nil => cases h
  | cons c combos =>
    rw [List.length_cons] at hlength
    have hone : Within 1 (4 ^ 0) (1 : Float) :=
      ⟨1, value?_ofNat (k := 1) (by decide), le_refl _, by norm_num⟩
    have hfirst := within_mul_multiplier (le_refl 1) hone (by decide) c
    have hproduct := within_product combos hfirst (by omega)
    obtain ⟨v, hv, hlow, hhigh⟩ := hproduct
    obtain ⟨w, hw, hlow', -⟩ := within_roundTo ⟨v, hv, hlow,
      hhigh.trans (pow_le_pow_right₀ (by norm_num) (show 0 + 1 + combos.length ≤ 11 by omega))⟩
    exact ⟨w, hw, by linarith⟩

end Arithmancy
