import Mathlib
import Arithmancy.Proofs.Number.Nearest

/-!
# Arithmetic is rounded correctly

Sums, differences, products and quotients of finite floating-point numbers are the sums,
differences, products and quotients of their values, rounded to the nearest number (`Rounds`). So
the bounds of an exact result are bounds of the rounded one, wherever the bounds are floating-point
numbers themselves (`Faithful`), and a result is finite as long as the exact one is not too great.

An operation brings its operands to one scale, computes with natural numbers there, and
leaves the rest to rounding. What remains to be seen is that it computes the exact result, and
that the scale leaves rounding nothing to shift to the left.
-/

namespace Arithmancy

namespace Binary64

open Float.Model (UnpackedFloat Format totalExponent)
open Float.Model.UnpackedFloat

/-! ## Operations on parts -/

section Parts

variable {x y : UnpackedFloat} {v w : ℚ}

theorem rounds_zero (s : Sign) : Rounds 0 (.ofModel (.pack (.zero s))) :=
  rounds_of_value (value?_eq_some_iff.mpr (denotes_pack_zero s))

theorem Denotes.rounds_pack (h : Denotes x v) : Rounds v (.ofModel (.pack x)) := by
  cases h with
  | finite h => exact rounds_of_value (value?_eq_some_iff.mpr (denotes_pack _ h))
  | zero s => exact rounds_zero s

theorem signed_mul (s t : Sign) (p q : ℚ) :
    signed (s * t) (p * q) = signed s p * signed t q := by
  cases s <;> cases t
  · exact (neg_mul_neg p q).symm
  · exact (neg_mul p q).symm
  · exact (mul_neg p q).symm
  · rfl

/-- The product of two magnitudes is never so short that it has to be shifted to the left. -/
theorem exponent_add_le {m n : Nat} {e f : Int} (hm : 0 < m) (hn : 0 < n) (hmc : Canonical m e)
    (hnc : Canonical n f) :
    e + f ≤ Format.binary64.targetExponent (totalExponent (m * n) (e + f)) := by
  rw [targetExponent_eq, totalExponent]
  have hlong (h : 2 ^ 52 ≤ m * n) : 52 ≤ (m * n).log2 :=
    (Nat.le_log2 (Nat.ne_of_gt (Nat.mul_pos hm hn))).mpr h
  rcases hmc.full with hfull | hleast
  · have := hlong (hfull.trans (Nat.le_mul_of_pos_right m hn))
    omega
  · rcases hnc.full with hfull | hleast'
    · have := hlong (hfull.trans (Nat.le_mul_of_pos_left n hm))
      omega
    · omega

theorem Denotes.rounds_mul (hx : Denotes x v) (hy : Denotes y w) :
    Rounds (v * w) (.ofModel (.pack (mul .binary64 x y))) := by
  cases hx with
  | @finite s m e hm hmc =>
    cases hy with
    | @finite t n f hn hnc =>
      have hround := rounds_roundWithAccuracy (Tracks.ofMantissa (m * n))
        (halves_ofMantissa (m * n)) (exponent_add_le hm hn hmc hnc) (s * t)
      have hvalue : ((m * n : ℕ) : ℚ) * 2 ^ (e + f) = m * 2 ^ e * (n * 2 ^ f) := by
        rw [zpow_add₀ two_ne_zero]
        push_cast
        ring
      rw [hvalue, signed_mul] at hround
      exact hround
    | zero t =>
      rw [mul_zero]
      exact rounds_zero _
  | zero s =>
    rw [zero_mul]
    cases hy <;> exact rounds_zero _

/-- A number is rounded correctly whatever the scale it is written at. -/
theorem rounds_round {n : Nat} (hn : n ≠ 0) (e : Int) (s : Sign) :
    Rounds (signed s (n * 2 ^ e)) (.ofModel (.pack (UnpackedFloat.round .binary64 s n e))) := by
  generalize hk : (e - Format.binary64.targetExponent (totalExponent n e)).toNat = k
  have htotal : totalExponent (n * 2 ^ k) (e - k) = totalExponent n e := by
    rw [totalExponent, totalExponent, log2_mul_two_pow hn]
    omega
  have hle : e - k ≤ Format.binary64.targetExponent (totalExponent (n * 2 ^ k) (e - k)) := by
    rw [htotal]
    omega
  have hvalue : ((n * 2 ^ k : ℕ) : ℚ) * 2 ^ (e - k : ℤ) = n * 2 ^ e := by
    rw [zpow_sub₀ two_ne_zero, zpow_natCast]
    push_cast
    field_simp
  have hround := rounds_roundWithAccuracy (Tracks.ofMantissa (n * 2 ^ k))
    (halves_ofMantissa (n * 2 ^ k)) hle s
  rw [hvalue] at hround
  rw [UnpackedFloat.round]
  simp only [decreaseExponent, hk, Nat.shiftLeft_eq]
  exact hround

theorem rounds_normalize (n e : Int) :
    Rounds (n * 2 ^ e) (.ofModel (.pack (UnpackedFloat.normalize .binary64 n e .positive))) := by
  rw [UnpackedFloat.normalize]
  rcases lt_trichotomy n 0 with h | rfl | h
  · rw [Int.compare_eq_lt.mpr h]
    have hcast : (n : ℚ) * 2 ^ e = signed .negative (((-n).toNat : ℕ) * 2 ^ e) := by
      have hn : (((-n).toNat : ℕ) : ℤ) = -n := by omega
      have hn' : (((-n).toNat : ℕ) : ℚ) = -n := by exact_mod_cast hn
      rw [signed, hn']
      ring
    rw [hcast]
    exact rounds_round (by omega) e .negative
  · rw [Int.cast_zero, zero_mul]
    exact rounds_zero .positive
  · rw [Int.compare_eq_gt.mpr h]
    have hcast : (n : ℚ) * 2 ^ e = signed .positive ((n.toNat : ℕ) * 2 ^ e) := by
      have hn : ((n.toNat : ℕ) : ℤ) = n := by omega
      have hn' : ((n.toNat : ℕ) : ℚ) = n := by exact_mod_cast hn
      rw [signed, hn']
    rw [hcast]
    exact rounds_round (by omega) e .positive

/-- A magnitude that is written at a smaller scale. -/
theorem cast_apply_decreaseExponent (s : Sign) (m : Nat) {e f : Int} (h : f ≤ e) :
    ((s.apply ((decreaseExponent m e f).1 : ℕ) : ℤ) : ℚ) * 2 ^ f = signed s (m * 2 ^ e) := by
  have hsplit : (m : ℚ) * 2 ^ e = (m <<< (e - f).toNat : ℕ) * 2 ^ f := by
    have hexp : e = ((e - f).toNat : ℤ) + f := by omega
    conv_lhs => rw [hexp, zpow_add₀ two_ne_zero, zpow_natCast]
    rw [Nat.shiftLeft_eq]
    push_cast
    ring
  rw [hsplit]
  cases s with
  | positive => rw [Sign.apply, signed, Int.cast_natCast]; rfl
  | negative => rw [Sign.apply, signed, Int.cast_neg, Int.cast_natCast, neg_mul]; rfl

theorem Denotes.rounds_add (hx : Denotes x v) (hy : Denotes y w) :
    Rounds (v + w) (.ofModel (.pack (add .binary64 x y))) := by
  cases hx with
  | @finite s m e hm hmc =>
    cases hy with
    | @finite t n f hn hnc =>
      have hround := rounds_normalize (s.apply (decreaseExponent m e (min e f)).1
        + t.apply (decreaseExponent n f (min e f)).1) (min e f)
      rw [Int.cast_add, add_mul, cast_apply_decreaseExponent s m (min_le_left e f),
        cast_apply_decreaseExponent t n (min_le_right e f)] at hround
      exact hround
    | zero t =>
      rw [add_zero]
      exact (Denotes.finite hmc).rounds_pack
  | zero s =>
    rw [zero_add]
    cases hy with
    | finite hnc => exact (Denotes.finite hnc).rounds_pack
    | zero t => cases s <;> cases t <;> exact rounds_zero _

theorem Denotes.rounds_sub (hx : Denotes x v) (hy : Denotes y w) :
    Rounds (v - w) (.ofModel (.pack (sub .binary64 x y))) := by
  cases hx with
  | @finite s m e hm hmc =>
    cases hy with
    | @finite t n f hn hnc =>
      have hround := rounds_normalize (s.apply (decreaseExponent m e (min e f)).1
        - t.apply (decreaseExponent n f (min e f)).1) (min e f)
      rw [Int.cast_sub, sub_mul, cast_apply_decreaseExponent s m (min_le_left e f),
        cast_apply_decreaseExponent t n (min_le_right e f)] at hround
      exact hround
    | zero t =>
      rw [sub_zero]
      exact (Denotes.finite hmc).rounds_pack
  | zero s =>
    rw [zero_sub]
    cases hy with
    | finite hnc =>
      rw [← signed_neg]
      exact (Denotes.finite hnc).rounds_pack
    | zero t =>
      rw [neg_zero]
      cases s <;> cases t <;> exact rounds_zero _

theorem signed_div (s t : Sign) (p q : ℚ) :
    signed (s / t) (p / q) = signed s p / signed t q := by
  cases s <;> cases t
  · exact (neg_div_neg_eq p q).symm
  · exact (neg_div q p).symm
  · exact (div_neg p).symm
  · rfl

/-- A quotient is shifted to the left beforehand, far enough. -/
theorem quotientExponent_le {m n : Nat} {e t : Int} {k : Nat} (hm : 0 < m) (hn : 0 < n)
    (ht : t = min e (Format.binary64.targetExponent (m.log2 - n.log2 + e)))
    (hk : k = (e - t).toNat) :
    t ≤ Format.binary64.targetExponent (totalExponent (m * 2 ^ k / n) t) := by
  rw [targetExponent_eq] at ht
  rw [targetExponent_eq, totalExponent]
  have hlog : n.log2 + 1 ≤ m.log2 + k →
      m.log2 + k - (n.log2 + 1) ≤ (m * 2 ^ k / n).log2 := fun hle => by
    have hquotient : 2 ^ (m.log2 + k - (n.log2 + 1)) ≤ m * 2 ^ k / n := by
      rw [Nat.le_div_iff_mul_le hn]
      calc 2 ^ (m.log2 + k - (n.log2 + 1)) * n
          ≤ 2 ^ (m.log2 + k - (n.log2 + 1)) * 2 ^ (n.log2 + 1) :=
            Nat.mul_le_mul_left _ Nat.lt_log2_self.le
        _ = 2 ^ m.log2 * 2 ^ k := by rw [← Nat.pow_add, ← Nat.pow_add, Nat.sub_add_cancel hle]
        _ ≤ m * 2 ^ k := Nat.mul_le_mul_right _ (Nat.log2_self_le (Nat.ne_of_gt hm))
    have hpos : 0 < m * 2 ^ k / n := (Nat.two_pow_pos _).trans_le hquotient
    exact (Nat.le_log2 (Nat.ne_of_gt hpos)).mpr hquotient
  omega

theorem Denotes.rounds_div (hx : Denotes x v) (hy : Denotes y w) (hw : w ≠ 0) :
    Rounds (v / w) (.ofModel (.pack (div .binary64 x y))) := by
  cases hy with
  | zero => exact absurd rfl hw
  | @finite t n f hn hnc =>
    cases hx with
    | zero s =>
      rw [zero_div]
      exact rounds_zero _
    | @finite s m e hm hmc =>
      obtain ⟨r, hr⟩ : ∃ r, r = min (e - f) (Format.binary64.targetExponent
          (totalExponent m e - totalExponent n f)) := ⟨_, rfl⟩
      generalize hk : (e - f - r).toNat = k
      have htotal : totalExponent m e - totalExponent n f
          = (m.log2 : Int) - n.log2 + (e - f) := by
        rw [totalExponent, totalExponent]
        omega
      have hle := quotientExponent_le hm hn (htotal ▸ hr) hk.symm
      have hcore : divCore .binary64 m e n f
          = (m * 2 ^ k / n, r, accuracyOfFraction (m * 2 ^ k % n) n) := by
        rw [divCore]
        simp only [← hr, hk, Nat.shiftLeft_eq]
      have hround := rounds_roundWithAccuracy (Tracks.ofQuotient (m * 2 ^ k) hn)
        (halves_ofQuotient (m * 2 ^ k) hn) hle (s / t)
      have hvalue : ((m * 2 ^ k : ℕ) : ℚ) / n * 2 ^ r = m * 2 ^ e / (n * 2 ^ f) := by
        have hexp : r = e - f - k := by omega
        rw [hexp, zpow_sub₀ two_ne_zero, zpow_sub₀ two_ne_zero, zpow_natCast]
        push_cast
        field_simp
      rw [hvalue, signed_div] at hround
      rw [div, hcore]
      exact hround

end Parts

/-! ## Operations on numbers -/

section Operations

variable {x y : Float} {v w : ℚ}

/-- **Sums** are rounded to the nearest number. -/
theorem rounds_add (hx : value? x = some v) (hy : value? y = some w) : Rounds (v + w) (x + y) :=
  (value?_eq_some_iff.mp hx).rounds_add (value?_eq_some_iff.mp hy)

/-- **Differences** are rounded to the nearest number. -/
theorem rounds_sub (hx : value? x = some v) (hy : value? y = some w) : Rounds (v - w) (x - y) :=
  (value?_eq_some_iff.mp hx).rounds_sub (value?_eq_some_iff.mp hy)

/-- **Products** are rounded to the nearest number. -/
theorem rounds_mul (hx : value? x = some v) (hy : value? y = some w) : Rounds (v * w) (x * y) :=
  (value?_eq_some_iff.mp hx).rounds_mul (value?_eq_some_iff.mp hy)

/-- **Quotients** are rounded to the nearest number. -/
theorem rounds_div (hx : value? x = some v) (hy : value? y = some w) (hw : w ≠ 0) :
    Rounds (v / w) (x / y) :=
  (value?_eq_some_iff.mp hx).rounds_div (value?_eq_some_iff.mp hy) hw

theorem faithful_add (hx : value? x = some v) (hy : value? y = some w) :
    Faithful (v + w) (x + y) :=
  (rounds_add hx hy).faithful

theorem faithful_sub (hx : value? x = some v) (hy : value? y = some w) :
    Faithful (v - w) (x - y) :=
  (rounds_sub hx hy).faithful

theorem faithful_mul (hx : value? x = some v) (hy : value? y = some w) :
    Faithful (v * w) (x * y) :=
  (rounds_mul hx hy).faithful

theorem faithful_div (hx : value? x = some v) (hy : value? y = some w) (hw : w ≠ 0) :
    Faithful (v / w) (x / y) :=
  (rounds_div hx hy hw).faithful

end Operations

end Binary64

end Arithmancy
