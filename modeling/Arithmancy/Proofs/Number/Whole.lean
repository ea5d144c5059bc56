import Arithmancy.Proofs.Number.Value

/-!
# Integers among the floating-point numbers

Many a rule of the game asks whether a number is an integer, and goes on with the integer. The
question is answered by rounding down and comparing, and the integer is taken from the parts of
the number. Both agree with its value: a number is taken for an integer exactly if its value is
one (`isInteger_iff`), and what is taken from it is that integer (`clamp_of_value`), at any size
and also of a negative zero.
-/

namespace Arithmancy

namespace Binary64

/-! ## Whole parts -/

namespace Finite

variable {d : Finite} {z : ℤ}

theorem magnitude_nonneg (d : Finite) : (0 : ℚ) ≤ d.significand * 2 ^ d.exponent :=
  mul_nonneg (Nat.cast_nonneg _) (two_zpow_pos _).le

theorem magnitude_of_value (h : d.value = z) :
    (d.significand : ℚ) * 2 ^ d.exponent = z.natAbs := by
  have habs : |d.value| = d.significand * 2 ^ d.exponent := by
    rw [value]
    split
    · rw [abs_neg, abs_of_nonneg d.magnitude_nonneg]
    · rw [abs_of_nonneg d.magnitude_nonneg]
  rw [← habs, h, Nat.cast_natAbs, Int.cast_abs]

/-- A number whose value is an integer is whole. -/
theorem isWhole_of_value (h : d.value = z) : d.isWhole = true := by
  by_contra hwhole
  obtain ⟨-, hlow, hhigh⟩ := magnitude_of_not_isWhole hwhole
  rw [magnitude_of_value h] at hlow hhigh
  have hlt : d.whole < z.natAbs := by exact_mod_cast hlow
  have hlt' : z.natAbs < d.whole + 1 := by exact_mod_cast hhigh
  omega

theorem whole_of_value (h : d.value = z) : d.whole = z.natAbs := by
  have hwhole := magnitude_of_isWhole (isWhole_of_value h)
  rw [magnitude_of_value h] at hwhole
  exact_mod_cast hwhole.symm

theorem truncate_of_value (h : d.value = z) : d.truncate = z := by
  have hnonneg := d.magnitude_nonneg
  rw [truncate, whole_of_value h]
  rw [value] at h
  split at h
  · next hnegative =>
    have hz : (z : ℚ) ≤ 0 := by linarith
    have hz : z ≤ 0 := by exact_mod_cast hz
    rw [if_pos hnegative]
    omega
  · next hnegative =>
    have hz : (0 : ℚ) ≤ z := by linarith
    have hz : 0 ≤ z := by exact_mod_cast hz
    rw [if_neg hnegative]
    omega

end Finite

/-! ## Integers -/

theorem isFinite_iff {x : Float} : x.isFinite = true ↔ ∃ v, value? x = some v := by
  show x.toModel.unpack.isFinite = true ↔ _
  unfold value? decode?
  cases x.toModel.unpack with
  | finite _ _ _ _ | zero _ => exact iff_of_true rfl ⟨_, rfl⟩
  | notANumber | infinity _ => exact iff_of_false Bool.false_ne_true fun ⟨_, h⟩ => nomatch h

/-- **A number is taken for an integer exactly if its value is one.** -/
theorem isInteger_iff {x : Float} :
    Scalar.isInteger x = true ↔ ∃ z : ℤ, value? x = some (z : ℚ) := by
  show (x.isFinite && floor x == x) = true ↔ _
  rw [Bool.and_eq_true, isFinite_iff]
  constructor
  · rintro ⟨⟨v, hv⟩, hfloor⟩
    exact ⟨⌊v⌋, ((beq_iff (value?_floor hv) hv).mp hfloor) ▸ hv⟩
  · rintro ⟨z, hz⟩
    refine ⟨⟨_, hz⟩, (beq_iff (value?_floor hz) hz).mpr ?_⟩
    rw [Int.floor_intCast]

/-- **The integer that is taken from an integer** is that integer, held between the bounds. -/
theorem clamp_of_value {x : Float} {z : ℤ} (h : value? x = some (z : ℚ)) (low high : Int) :
    clamp low high x = max low (min high z) := by
  obtain ⟨d, hd, hvalue⟩ := Option.map_eq_some_iff.mp h
  rw [clamp, hd]
  exact congrArg (fun k => max low (min high k)) (Finite.truncate_of_value hvalue)

theorem toNat_of_value {x : Float} {n high : Nat} (h : value? x = some (n : ℚ))
    (hn : n ≤ high) : Scalar.toNat high x = n := by
  show (clamp 0 high x).toNat = n
  rw [clamp_of_value (z := n) (by exact_mod_cast h)]
  omega

end Binary64

end Arithmancy
