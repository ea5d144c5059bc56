import Mathlib
import Arithmancy.Proofs.Number.Rounding
import Arithmancy.Proofs.Number.Whole

/-!
# Rounding to the nearest number

That rounding leaps over no number leaves two things open: which of its two neighbours a result is
rounded to, and where the numbers end. Both are decided by the first bit that is shifted out and
by whether any bit is set behind it (`Halves`). So the rounded significand is the integer nearest
to the exact one, and of two equally near the even one (`NearestEven`).

The scale is the least at which the exact significand has at most 53 bits (`RoundedAt`). At the
greatest scale, a significand that would be rounded to one bit more has no number left, and the
result is an infinity. That begins half a unit before the next power of two, and so a result is
finite exactly if its magnitude is less than `overflow` (`Rounds.isFinite_iff`).
-/

namespace Arithmancy

namespace Binary64

open Float.Model (UnpackedFloat Format totalExponent)
open Float.Model.UnpackedFloat

/-! ## The nearest integer -/

/-- **The integer nearest to a magnitude**, and of two equally near the even one. -/
structure NearestEven (q : ℚ) (c : Nat) : Prop where
  /-- No integer is nearer. -/
  near : |q - c| ≤ 1 / 2
  /-- Where another one is as near, it is even. -/
  even : |q - c| = 1 / 2 → c % 2 = 0

/-- **The bits behind a significand** tell on which side of the middle between two integers the
magnitude lies. -/
structure Halves (em : ExtendedMantissa) (q : ℚ) : Prop where
  /-- The first bit is set from the middle on. -/
  round : em.roundBit = true ↔ (em.mantissa : ℚ) + 1 / 2 ≤ q
  /-- No other bit is set in the middle itself. -/
  tie : em.roundBit = true ∧ em.stickyBit = false ↔ q = em.mantissa + 1 / 2

theorem halves_ofMantissa (m : Nat) : Halves (.ofMantissaAndAccuracy m .exact) m := by
  constructor
  · exact iff_of_false Bool.false_ne_true (not_le.mpr (lt_add_of_pos_right _ one_half_pos))
  · exact iff_of_false (fun h => Bool.false_ne_true h.1)
      (ne_of_lt (lt_add_of_pos_right _ one_half_pos))

/-- **The remainder of a quotient** is compared with the middle. -/
theorem bits_ofFraction (m : Nat) {r n : Nat} (hr : r < n) :
    ((ExtendedMantissa.ofMantissaAndAccuracy m (accuracyOfFraction r n)).roundBit = true
        ↔ n ≤ 2 * r)
      ∧ ((ExtendedMantissa.ofMantissaAndAccuracy m (accuracyOfFraction r n)).roundBit = true
          ∧ (ExtendedMantissa.ofMantissaAndAccuracy m (accuracyOfFraction r n)).stickyBit = false
        ↔ 2 * r = n) := by
  have hclear {p : Prop} (hp : ¬p) : (false = true ↔ p) := iff_of_false Bool.false_ne_true hp
  rw [accuracyOfFraction]
  by_cases h0 : r = 0
  · rw [if_pos h0]
    exact ⟨hclear (by omega), iff_of_false (fun h => Bool.false_ne_true h.1) (by omega)⟩
  · rw [if_neg h0]
    cases hcompare : compare (2 * r) n with
    | lt =>
      have := Nat.compare_eq_lt.mp hcompare
      exact ⟨hclear (by omega), iff_of_false (fun h => Bool.false_ne_true h.1) (by omega)⟩
    | eq =>
      have heq := Nat.compare_eq_eq.mp hcompare
      exact ⟨iff_of_true rfl heq.ge, iff_of_true ⟨rfl, rfl⟩ heq⟩
    | gt =>
      have hgt := Nat.compare_eq_gt.mp hcompare
      exact ⟨iff_of_true rfl hgt.le, iff_of_false (fun h => Bool.false_ne_true h.2.symm) hgt.ne'⟩

theorem halves_ofQuotient (m : Nat) {n : Nat} (hn : 0 < n) :
    Halves (.ofMantissaAndAccuracy (m / n) (accuracyOfFraction (m % n) n)) (m / n : ℚ) := by
  have hpos : (0 : ℚ) < n := Nat.cast_pos.mpr hn
  have hsplit : (m : ℚ) = (m / n : ℕ) * n + (m % n : ℕ) := by
    exact_mod_cast (Nat.div_add_mod' m n).symm
  obtain ⟨hround, htie⟩ := bits_ofFraction (m / n) (Nat.mod_lt m hn)
  constructor
  · rw [hround, Tracks.mantissa_ofMantissaAndAccuracy, le_div_iff₀ hpos, hsplit,
      ← Nat.cast_le (α := ℚ)]
    push_cast
    constructor <;> intro h <;> linarith
  · rw [htie, Tracks.mantissa_ofMantissaAndAccuracy, div_eq_iff hpos.ne', hsplit,
      ← Nat.cast_inj (R := ℚ)]
    push_cast
    constructor <;> intro h <;> linarith

namespace Tracks

variable {em : ExtendedMantissa} {q : ℚ}

/-- **A bit that is shifted out** is the first behind the significand. -/
theorem halves_shiftRightOne (h : Tracks em q) : Halves em.shiftRightOne (q / 2) := by
  have hlow := h.low
  have hhigh := h.high
  have hsplit : (em.mantissa : ℚ) = 2 * (em.mantissa / 2 : ℕ) + (em.mantissa % 2 : ℕ) := by
    exact_mod_cast (Nat.div_add_mod em.mantissa 2).symm
  have hmantissa : em.shiftRightOne.mantissa = em.mantissa / 2 := rfl
  have hround : em.shiftRightOne.roundBit = (em.mantissa % 2 != 0) := rfl
  have hsticky : em.shiftRightOne.stickyBit = (em.roundBit || em.stickyBit) := rfl
  rcases Nat.mod_two_eq_zero_or_one em.mantissa with heven | hodd
  · rw [heven, Nat.cast_zero, add_zero] at hsplit
    rw [heven] at hround
    constructor
    · rw [hround, hmantissa]
      exact iff_of_false Bool.false_ne_true (by linarith)
    · rw [hround, hmantissa]
      exact iff_of_false (fun hbits => Bool.false_ne_true hbits.1) fun heq => by linarith
  · rw [hodd, Nat.cast_one] at hsplit
    rw [hodd] at hround
    constructor
    · rw [hround, hmantissa]
      exact iff_of_true rfl (by linarith)
    · rw [hround, hsticky, hmantissa, Bool.or_eq_false_iff, ← h.clear, hsplit]
      constructor
      · rintro ⟨-, heq⟩
        linarith
      · intro heq
        exact ⟨rfl, by linarith⟩

theorem halves_shiftRight (h : Tracks em q) (hhalves : Halves em q) (k : Nat) :
    Halves (em >>> k) (q / 2 ^ k) := by
  cases k with
  | zero =>
    rw [pow_zero, div_one]
    exact hhalves
  | succ k =>
    rw [pow_succ, ← div_div]
    exact (h.shiftRight k).halves_shiftRightOne

/-- **The rounded significand is the nearest integer.** -/
theorem nearestEven (h : Tracks em q) (hhalves : Halves em q) :
    NearestEven q em.roundedMantissa := by
  have hlow := h.low
  have hhigh := h.high
  obtain ⟨hround, htie⟩ := hhalves
  obtain ⟨m, round, sticky⟩ := em
  dsimp only at hlow hhigh hround htie
  cases round with
  | false =>
    have hbelow : q < m + 1 / 2 := not_le.mp fun hle => Bool.false_ne_true (hround.mpr hle)
    have hrounded : ExtendedMantissa.roundedMantissa ⟨m, false, sticky⟩ = m := by
      cases sticky <;> rfl
    have habs : |q - m| < 1 / 2 := abs_lt.mpr ⟨by linarith, by linarith⟩
    rw [hrounded]
    exact ⟨habs.le, fun heq => absurd heq habs.ne⟩
  | true =>
    have hmiddle : (m : ℚ) + 1 / 2 ≤ q := hround.mp rfl
    cases sticky with
    | false =>
      have hq : q = m + 1 / 2 := htie.mp ⟨rfl, rfl⟩
      have hrounded : ExtendedMantissa.roundedMantissa ⟨m, true, false⟩ = m + m % 2 := rfl
      rw [hrounded, hq]
      refine ⟨?_, fun _ => by omega⟩
      rcases Nat.mod_two_eq_zero_or_one m with heven | hodd
      · rw [heven, Nat.add_zero, add_sub_cancel_left, abs_of_pos one_half_pos]
      · rw [hodd, Nat.cast_add, Nat.cast_one, abs_le]
        constructor <;> linarith
    | true =>
      have hne : q ≠ m + 1 / 2 := fun heq => Bool.false_ne_true (htie.mpr heq).2.symm
      have habove : (m : ℚ) + 1 / 2 < q := lt_of_le_of_ne hmiddle hne.symm
      have hrounded : ExtendedMantissa.roundedMantissa ⟨m, true, true⟩ = m + 1 := rfl
      have habs : |q - (m + 1 : ℕ)| < 1 / 2 := by
        push_cast
        exact abs_lt.mpr ⟨by linarith, by linarith⟩
      rw [hrounded]
      exact ⟨habs.le, fun heq => absurd heq habs.ne⟩

end Tracks

/-! ## The scale -/

/-- **A magnitude is rounded at a scale** `2 ^ t` to `c` units: the scale is the least one, or the
magnitude is so great that it has 53 bits there. -/
structure RoundedAt (q : ℚ) (t : Int) (c : Nat) : Prop where
  /-- The scale is not below the least one. -/
  low : -1074 ≤ t
  /-- The magnitude has at most 53 bits before the point. -/
  lt : q < 2 ^ 53 * 2 ^ t
  /-- Only at the least scale it may have fewer. -/
  full : 2 ^ 52 * 2 ^ t ≤ q ∨ t = -1074
  /-- The units are the nearest integer. -/
  nearest : NearestEven (q / 2 ^ t) c

/-- **What a magnitude is packed as**: itself with its sign, or an infinity if it is out of
range. -/
structure PackedAs (x : Float) (s : Sign) (w : ℚ) : Prop where
  /-- In range, it is a number. -/
  value : w < 2 ^ 1024 → value? x = some (signed s w)
  /-- Out of range, it is an infinity. -/
  infinity : 2 ^ 1024 ≤ w → x.toModel.unpack = .infinity s

/-- The range ends one bit beyond the greatest scale. -/
theorem range_eq : (2 : ℚ) ^ 1024 = 2 ^ 53 * 2 ^ (971 : ℤ) := by
  rw [← zpow_natCast, ← zpow_natCast, ← zpow_add₀ two_ne_zero]
  rfl

theorem lt_range {q : ℚ} {t : Int} (hq : q < 2 ^ 53) (ht : t ≤ 971) : q * 2 ^ t < 2 ^ 1024 := by
  calc q * 2 ^ t < 2 ^ 53 * 2 ^ t := mul_lt_mul_of_pos_right hq (two_zpow_pos t)
    _ ≤ 2 ^ 53 * 2 ^ (971 : ℤ) :=
        mul_le_mul_of_nonneg_left (zpow_le_zpow_right₀ one_le_two ht) (by positivity)
    _ = 2 ^ 1024 := range_eq.symm

theorem range_le {q : ℚ} {t : Int} (hq : 2 ^ 52 ≤ q) (ht : 971 < t) : 2 ^ 1024 ≤ q * 2 ^ t := by
  calc (2 : ℚ) ^ 1024 = 2 ^ 52 * 2 ^ (971 + 1 : ℤ) := by
        rw [range_eq, zpow_add_one₀ two_ne_zero]
        ring
    _ ≤ 2 ^ 52 * 2 ^ t :=
        mul_le_mul_of_nonneg_left (zpow_le_zpow_right₀ one_le_two ht) (by positivity)
    _ ≤ q * 2 ^ t := mul_le_mul_of_nonneg_right hq (two_zpow_pos t).le

theorem packedAs_signedParts {c : Nat} {t : Int} (hc : c < 2 ^ 53) (hlow : -1074 ≤ t)
    (hfull : 2 ^ 52 ≤ c ∨ t = -1074) (s : Sign) :
    PackedAs (.ofModel (.pack (signedParts s c t))) s (c * 2 ^ t) := by
  rcases le_or_gt t 971 with hhigh | hover
  · exact ⟨fun _ => value?_signedParts ⟨hc, hlow, hhigh, hfull⟩ s,
      fun hrange => absurd (lt_range (by exact_mod_cast hc) hhigh) (not_lt.mpr hrange)⟩
  · have hc52 : 2 ^ 52 ≤ c := hfull.resolve_right fun h0 => by omega
    have hrange := range_le (q := c) (by exact_mod_cast hc52) hover
    exact ⟨fun hlt => absurd hlt (not_lt.mpr hrange),
      fun _ => unpack_signedParts (by omega) hover s⟩

/-- **Rounding gives the nearest number** at the right scale, provided that nothing has to be
shifted to the left. -/
theorem exists_roundedAt {m : Nat} {e : Int} {acc : Accuracy} {q : ℚ}
    (h : Tracks (.ofMantissaAndAccuracy m acc) q)
    (hhalves : Halves (.ofMantissaAndAccuracy m acc) q)
    (he : e ≤ Format.binary64.targetExponent (totalExponent m e)) (s : Sign) :
    ∃ t c, RoundedAt (q * 2 ^ e) t c
      ∧ PackedAs (.ofModel (.pack (roundWithAccuracy .binary64 s m e acc))) s (c * 2 ^ t) := by
  obtain ⟨k, em, rfl, htracks, hunits, hlow, hlt, hfull, hround⟩ := exists_shifted h he s
  have hnearest := htracks.nearestEven (h.halves_shiftRight hhalves k)
  generalize ExtendedMantissa.ofMantissaAndAccuracy m acc >>> k = em at *
  have hpos := two_zpow_pos (e + k)
  refine ⟨e + k, em.roundedMantissa, ⟨hlow, ?_, ?_, ?_⟩, ?_⟩
  · rw [← hunits]
    refine mul_lt_mul_of_pos_right (htracks.high.trans_le ?_) hpos
    exact_mod_cast Nat.succ_le_of_lt hlt
  · rw [← hunits]
    refine hfull.imp_left fun hfull => mul_le_mul_of_nonneg_right (le_trans ?_ htracks.low) hpos.le
    exact_mod_cast hfull
  · rw [← hunits, mul_div_cancel_right₀ _ hpos.ne']
    exact hnearest
  · rcases hround with ⟨hfits, hround⟩ | ⟨hcarry, hround⟩
    · rw [hround]
      refine packedAs_signedParts hfits hlow (hfull.imp_left fun hfull => ?_) s
      exact hfull.trans (htracks.le_rounded htracks.low)
    · rw [hround, hcarry, ← carried]
      exact packedAs_signedParts (by decide) (by omega) (.inl le_rfl) s

/-! ## Correct rounding -/

/-- **`x` is what `q` is rounded to**: the nearest number, or an infinity if that is out of range.
In particular rounding leaps over no number. -/
structure Rounds (q : ℚ) (x : Float) : Prop where
  /-- No number lies strictly between. -/
  faithful : Faithful q x
  /-- It is the nearest at the right scale. -/
  nearest : ∃ s t c, signed s |q| = q ∧ RoundedAt |q| t c ∧ PackedAs x s (c * 2 ^ t)

theorem rounds_roundWithAccuracy {m : Nat} {e : Int} {acc : Accuracy} {q : ℚ}
    (h : Tracks (.ofMantissaAndAccuracy m acc) q)
    (hhalves : Halves (.ofMantissaAndAccuracy m acc) q)
    (he : e ≤ Format.binary64.targetExponent (totalExponent m e)) (s : Sign) :
    Rounds (signed s (q * 2 ^ e)) (.ofModel (.pack (roundWithAccuracy .binary64 s m e acc))) := by
  obtain ⟨t, c, hrounded, hpacked⟩ := exists_roundedAt h hhalves he s
  have hnonneg : (0 : ℚ) ≤ q * 2 ^ e :=
    mul_nonneg ((Nat.cast_nonneg _).trans h.low) (two_zpow_pos e).le
  have habs := abs_signed hnonneg s
  exact ⟨faithful_roundWithAccuracy h he s, s, t, c, by rw [habs], by rwa [habs], hpacked⟩

/-- An integer is nearest to itself. -/
theorem nearestEven_self (c : Nat) : NearestEven c c := by
  constructor
  · rw [sub_self, abs_zero]
    exact one_half_pos.le
  · rw [sub_self, abs_zero]
    exact fun heq => absurd heq one_half_pos.ne

/-- **A number is rounded to itself.** -/
theorem rounds_of_value {x : Float} {v : ℚ} (h : value? x = some v) : Rounds v x := by
  obtain ⟨s, c, t, hcanonical, hv⟩ := (value?_eq_some_iff.mp h).exists_canonical
  have habs : |v| = c * 2 ^ t := hv ▸ abs_signed (magnitude_nonneg c t) s
  have hpos := two_zpow_pos t
  refine ⟨faithful_of_value h, s, t, c, by rw [habs, hv], ⟨hcanonical.low, ?_, ?_, ?_⟩, ?_⟩
  · rw [habs]
    exact mul_lt_mul_of_pos_right (by exact_mod_cast hcanonical.lt) hpos
  · rw [habs]
    refine hcanonical.full.imp_left fun hfull => mul_le_mul_of_nonneg_right ?_ hpos.le
    exact_mod_cast hfull
  · rw [habs, mul_div_cancel_right₀ _ hpos.ne']
    exact nearestEven_self c
  · refine ⟨fun _ => hv ▸ h, fun hrange => absurd ?_ (not_lt.mpr hrange)⟩
    exact lt_range (by exact_mod_cast hcanonical.lt) hcanonical.high

/-! ## Overflow -/

/-- **The least magnitude that is rounded to an infinity**: half a unit below the power of two
behind the last number. -/
def overflow : ℚ := 2 ^ 1024 - 2 ^ 970

theorem overflow_eq : overflow = (2 ^ 53 - 1 / 2) * 2 ^ (971 : ℤ) := by
  have hhalf : (1 / 2 : ℚ) * 2 ^ (971 : ℤ) = 2 ^ 970 := by
    rw [show (971 : ℤ) = 970 + 1 from rfl, zpow_add_one₀ two_ne_zero, mul_comm, mul_assoc,
      mul_one_div_cancel two_ne_zero, mul_one]
    rfl
  rw [overflow, range_eq, sub_mul, hhalf]

/-- At the greatest scale, a magnitude is out of range from half a unit below the next power of
two on, because the greatest significand is odd. -/
theorem NearestEven.lt_iff {q : ℚ} {c : Nat} (h : NearestEven q c) :
    c < 2 ^ 53 ↔ q < 2 ^ 53 - 1 / 2 := by
  obtain ⟨hlow, hhigh⟩ := abs_le.mp h.near
  constructor
  · intro hc
    have hc' : (c : ℚ) + 1 ≤ 2 ^ 53 := by exact_mod_cast hc
    refine lt_of_le_of_ne (by linarith) fun hq => ?_
    have hlast : (c : ℚ) = (2 ^ 53 - 1 : ℕ) := by
      push_cast
      linarith
    have heven := h.even (by rw [hq, hlast]; norm_num)
    have hlast' : c = 2 ^ 53 - 1 := by exact_mod_cast hlast
    omega
  · intro hq
    have hc : (c : ℚ) < (2 ^ 53 : ℕ) := by
      push_cast
      linarith
    exact_mod_cast hc

/-- **What is rounded stays in range exactly if the magnitude is below the overflow.** -/
theorem RoundedAt.lt_range_iff {q : ℚ} {t : Int} {c : Nat} (h : RoundedAt q t c) :
    (c : ℚ) * 2 ^ t < 2 ^ 1024 ↔ q < overflow := by
  have hpos := two_zpow_pos t
  obtain ⟨hlow, hhigh⟩ := abs_le.mp h.nearest.near
  have hlt : q / 2 ^ t < 2 ^ 53 := (div_lt_iff₀ hpos).mpr h.lt
  rcases lt_trichotomy t 971 with hsmall | rfl | hbig
  · -- even one bit more is still in range
    refine iff_of_true ?_ ?_
    · have hc : (c : ℚ) / 2 < 2 ^ 53 := by linarith
      have hrange := lt_range hc (Int.add_one_le_of_lt hsmall)
      rwa [zpow_add_one₀ two_ne_zero, mul_comm ((2 : ℚ) ^ t), ← mul_assoc,
        div_mul_cancel₀ _ two_ne_zero] at hrange
    · have hscale : (2 : ℚ) ^ (t + 1) ≤ 2 ^ (971 : ℤ) := zpow_le_zpow_right₀ one_le_two hsmall
      rw [zpow_add_one₀ two_ne_zero] at hscale
      have hpos' := two_zpow_pos 971
      have hq := h.lt
      rw [overflow_eq]
      generalize (2 : ℚ) ^ (971 : ℤ) = unit at *
      linarith
  · rw [overflow_eq, ← div_lt_iff₀ hpos, ← h.nearest.lt_iff, range_eq, mul_lt_mul_iff_left₀ hpos]
    exact_mod_cast Iff.rfl
  · have hfull : 2 ^ 52 ≤ q / 2 ^ t :=
      (le_div_iff₀ hpos).mpr (h.full.resolve_right fun h0 => by omega)
    have hc : (2 : ℚ) ^ 52 ≤ c := by
      have hc' : ((2 ^ 52 : ℕ) : ℚ) < (c + 1 : ℕ) := by
        push_cast
        linarith
      exact_mod_cast Nat.lt_succ_iff.mp (Nat.cast_lt.mp hc')
    have hrange := range_le hfull hbig
    rw [div_mul_cancel₀ q hpos.ne'] at hrange
    refine iff_of_false (not_lt.mpr (range_le hc hbig)) (not_lt.mpr (le_trans ?_ hrange))
    exact sub_le_self _ (by positivity)

theorem Rounds.isFinite_iff {q : ℚ} {x : Float} (h : Rounds q x) :
    x.isFinite = true ↔ |q| < overflow := by
  obtain ⟨s, t, c, -, hrounded, hpacked⟩ := h.nearest
  rw [← hrounded.lt_range_iff, Binary64.isFinite_iff]
  constructor
  · rintro ⟨v, hv⟩
    by_contra hrange
    have hinfinity := hpacked.infinity (not_lt.mp hrange)
    have hdenotes := value?_eq_some_iff.mp hv
    rw [hinfinity] at hdenotes
    cases hdenotes
  · exact fun hrange => ⟨_, hpacked.value hrange⟩

/-- What is not finite is an infinity, and never undefined. -/
theorem Rounds.exists_infinity {q : ℚ} {x : Float} (h : Rounds q x) (hq : overflow ≤ |q|) :
    ∃ s, x.toModel.unpack = .infinity s := by
  obtain ⟨s, t, c, -, hrounded, hpacked⟩ := h.nearest
  have hrange := mt hrounded.lt_range_iff.mp (not_lt.mpr hq)
  exact ⟨s, hpacked.infinity (not_lt.mp hrange)⟩

end Binary64

end Arithmancy
