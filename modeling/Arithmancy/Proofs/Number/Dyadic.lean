import Mathlib
import Arithmancy.Number.Scalar

/-!
# Numbers that are not rounded

Floating-point arithmetic rounds, but not always. A natural number below `2 ^ 53`, scaled
by a power of two that is neither tiny nor huge, is a floating-point number as it stands
(`Binary64.dyadic`), and an operation whose result is of that form gives exactly that
result: integers are read exactly, products and quotients by powers of two are exact
(`mul_dyadic`, `div_two_pow`), and the integer below such a number is what
division of natural numbers gives (`floor_dyadic`).

All of this comes from one fact about rounding: a significand that ends in zeros loses
nothing when they are dropped (`roundWithAccuracy_exact`).
-/

namespace Arithmancy

namespace Binary64

open Float.Model (UnpackedFloat Format totalExponent)
open Float.Model.UnpackedFloat

/-! ## Significands -/

/-- A natural number shifted until it fills the 53 bits of a significand. -/
def filled (k : Nat) : Nat := k * 2 ^ (52 - k.log2)

theorem log2_mul_two_pow {k : Nat} (hk : k ≠ 0) (j : Nat) : (k * 2 ^ j).log2 = k.log2 + j := by
  have hpos : 0 < 2 ^ j := Nat.two_pow_pos j
  refine (Nat.log2_eq_iff (Nat.mul_ne_zero hk (Nat.ne_of_gt hpos))).mpr ⟨?_, ?_⟩
  · rw [Nat.pow_add]
    exact Nat.mul_le_mul_right _ (Nat.log2_self_le hk)
  · rw [Nat.add_right_comm, Nat.pow_add]
    exact Nat.mul_lt_mul_of_pos_right Nat.lt_log2_self hpos

theorem log2_le {k : Nat} (hk : k < 2 ^ 53) : k.log2 ≤ 52 := by
  by_cases h : k = 0
  · rw [h]
    decide
  · exact Nat.le_of_lt_succ ((Nat.log2_lt h).mpr hk)

theorem filled_pos {k : Nat} (hk : k ≠ 0) : 0 < filled k :=
  Nat.mul_pos (Nat.pos_of_ne_zero hk) (Nat.two_pow_pos _)

theorem log2_filled {k : Nat} (hk : k ≠ 0) (hlt : k < 2 ^ 53) : (filled k).log2 = 52 := by
  have := log2_le hlt
  rw [filled, log2_mul_two_pow hk]
  omega

/-! ## Rounding what is exact -/

/-- Zeros that are shifted out leave no trace. -/
theorem shiftRight_exact (m j : Nat) :
    (⟨m * 2 ^ j, false, false⟩ : ExtendedMantissa) >>> j = ⟨m, false, false⟩ := by
  induction j generalizing m with
  | zero => rw [Nat.pow_zero, Nat.mul_one]; rfl
  | succ j ih =>
    show ((⟨m * 2 ^ (j + 1), false, false⟩ : ExtendedMantissa) >>> j).shiftRightOne = _
    rw [Nat.pow_succ, Nat.mul_comm (2 ^ j) 2, ← Nat.mul_assoc, ih (m * 2)]
    simp [ExtendedMantissa.shiftRightOne]

/-- The parts of the number `k * 2 ^ e`. -/
def parts (k : Nat) (e : Int) : UnpackedFloat :=
  if h : 0 < filled k then .finite .positive (filled k) (e - (52 - k.log2 : Nat)) h
  else .zero .positive

theorem parts_of_ne_zero {k : Nat} (hk : k ≠ 0) (e : Int) :
    parts k e = .finite .positive (filled k) (e - (52 - k.log2 : Nat)) (filled_pos hk) :=
  dif_pos (filled_pos hk)

@[simp] theorem parts_zero (e : Int) : parts 0 e = .zero .positive := dif_neg (by simp [filled])

/-- **A number that has room for all its digits is not rounded.** -/
theorem roundWithAccuracy_exact {k : Nat} (hk : k ≠ 0) (hlt : k < 2 ^ 53) {j : Nat}
    (hj : 52 - k.log2 ≤ j) {f : Int} (hf : -1022 ≤ f + j) :
    roundWithAccuracy .binary64 .positive (k * 2 ^ j) f .exact = parts k (f + j) := by
  have hlog := log2_le hlt
  have hsplit : k * 2 ^ j = filled k * 2 ^ (j - (52 - k.log2)) := by
    rw [filled, Nat.mul_assoc, ← Nat.pow_add]
    congr 2
    omega
  have htarget : Format.binary64.targetExponent (totalExponent (k * 2 ^ j) f)
      = f + (j - (52 - k.log2) : Nat) := by
    simp only [Format.targetExponent, totalExponent, log2_mul_two_pow hk, Format.mantissaBits,
      Format.minExponent]
    omega
  have hfirst : shiftToTargetExponent .binary64 (k * 2 ^ j) f .exact
      = (⟨filled k, false, false⟩, f + (j - (52 - k.log2) : Nat)) := by
    rw [shiftToTargetExponent, htarget, shiftToExponent, hsplit]
    have hshift : (f + (j - (52 - k.log2) : Nat) - f).toNat = j - (52 - k.log2) := by omega
    rw [hshift]
    simp only [ExtendedMantissa.ofMantissaAndAccuracy, shiftRight_exact]
  -- rounding may carry into one more bit and is checked a second time; here nothing carries
  have hfixed : Format.binary64.targetExponent
      (totalExponent (filled k) (f + (j - (52 - k.log2) : Nat)))
      = f + (j - (52 - k.log2) : Nat) := by
    simp only [Format.targetExponent, totalExponent, log2_filled hk hlt, Format.mantissaBits,
      Format.minExponent]
    omega
  have hsecond : shiftToTargetExponent .binary64 (filled k) (f + (j - (52 - k.log2) : Nat)) .exact
      = (⟨filled k, false, false⟩, f + (j - (52 - k.log2) : Nat)) := by
    rw [shiftToTargetExponent, hfixed, shiftToExponent, Int.sub_self]
    simp only [ExtendedMantissa.ofMantissaAndAccuracy, Int.toNat_zero]
    rw [Int.natCast_zero, Int.add_zero]
    rfl
  rw [roundWithAccuracy, hfirst]
  simp only [ExtendedMantissa.roundedMantissa, ExtendedMantissa.accuracy,
    Accuracy.roundToNearestEven, hsecond]
  rw [dif_neg (Nat.ne_of_gt (filled_pos hk)), parts_of_ne_zero hk]
  congr 1
  omega

/-! ## Packing -/

/-- A significand of 53 bits is stored without its first bit. -/
theorem toNat_one_append {m : Nat} (hlog : m.log2 = 52) :
    (1#1 ++ BitVec.ofNat 52 m).toNat = m := by
  have hne : m ≠ 0 := fun h => by rw [h] at hlog; cases hlog
  obtain ⟨hlow, hhigh⟩ := (Nat.log2_eq_iff hne).mp hlog
  rw [BitVec.toNat_append, ← Nat.shiftLeft_add_eq_or_of_lt (BitVec.ofNat 52 m).isLt,
    BitVec.toNat_ofNat, Nat.shiftLeft_eq]
  show 1 * 2 ^ 52 + m % 2 ^ 52 = m
  omega

/-- **What is packed is unpacked again**: a number whose significand has 53 bits and whose
exponent is in range. -/
theorem unpack_pack {sign : Sign} {m : Nat} {e : Int} (hm : 0 < m) (hlog : m.log2 = 52)
    (hlow : -1074 ≤ e) (hhigh : e ≤ 971) :
    unpack .binary64 (pack .binary64 (.finite sign m e hm)) = .finite sign m e hm := by
  have hbiased : (e + Format.binary64.exponentBias
      + Format.binary64.mantissaBitsWithoutImplicit).toNat = (e + 1075).toNat := by
    show (e + (1023 : Nat) + (52 : Nat)).toNat = _
    omega
  have hnat : (BitVec.ofNat 11 (e + 1075).toNat).toNat = (e + 1075).toNat := by
    rw [BitVec.toNat_ofNat]
    omega
  have hones : BitVec.ofNat 11 (e + 1075).toNat ≠ -1#11 := fun h => by
    have h2047 : (e + 1075).toNat = 2047 := hnat.symm.trans (congrArg BitVec.toNat h)
    omega
  have hzeros : BitVec.ofNat 11 (e + 1075).toNat ≠ 0#11 := fun h => by
    have h0 : (e + 1075).toNat = 0 := hnat.symm.trans (congrArg BitVec.toNat h)
    omega
  rw [pack]
  simp only [hlog, hbiased]
  rw [if_neg (by omega), if_pos (show 52 + 1 = Format.binary64.mantissaBits from rfl), unpack]
  simp only [unpackMantissa_packComponents, unpackExponent_packComponents,
    unpackSign_packComponents, Sign.ofBitVec_toBitVec, toNat_one_append hlog]
  rw [if_neg hones, if_neg hzeros]
  congr 1
  rw [hnat]
  show ((e + 1075).toNat : Int) - ((1023 : Nat) + (52 : Nat)) = e
  omega

/-- **The number `k * 2 ^ e`.** -/
def dyadic (k : Nat) (e : Int) : Float := .ofModel (.pack (parts k e))

theorem unpack_dyadic {k : Nat} (hlt : k < 2 ^ 53) {e : Int} (hlow : -1022 ≤ e)
    (hhigh : e ≤ 971) : (dyadic k e).toModel.unpack = parts k e := by
  by_cases hk : k = 0
  · rw [hk, dyadic, parts_zero]
    rfl
  · rw [dyadic, parts_of_ne_zero hk]
    exact unpack_pack _ (log2_filled hk hlt) (by omega) (by omega)

/-! ## Arithmetic -/

/-- Factors of two may be counted on either side. -/
theorem dyadic_mul_two_pow {k : Nat} (j : Nat) (hlt : k * 2 ^ j < 2 ^ 53) (e : Int) :
    dyadic (k * 2 ^ j) e = dyadic k (e + j) := by
  by_cases hk : k = 0
  · rw [hk, Nat.zero_mul, dyadic, dyadic, parts_zero, parts_zero]
  · have hne : k * 2 ^ j ≠ 0 := Nat.mul_ne_zero hk (Nat.ne_of_gt (Nat.two_pow_pos j))
    have hlog := log2_le hlt
    rw [log2_mul_two_pow hk] at hlog
    have hfilled : filled (k * 2 ^ j) = filled k := by
      rw [filled, filled, log2_mul_two_pow hk, Nat.mul_assoc, ← Nat.pow_add]
      congr 2
      omega
    rw [dyadic, dyadic, parts_of_ne_zero hk, parts_of_ne_zero hne]
    congr 3
    rw [log2_mul_two_pow hk]
    omega

theorem mul_dyadic {a b : Nat} (ha : a < 2 ^ 53) (hb : b < 2 ^ 53) (hab : a * b < 2 ^ 53)
    {e f : Int} (he : -1022 ≤ e) (he' : e ≤ 971) (hf : -1022 ≤ f) (hf' : f ≤ 971)
    (hef : -1022 ≤ e + f) : dyadic a e * dyadic b f = dyadic (a * b) (e + f) := by
  have hmul : dyadic a e * dyadic b f
      = .ofModel (.pack (mul .binary64 (parts a e) (parts b f))) := by
    rw [← unpack_dyadic ha he he', ← unpack_dyadic hb hf hf']
    rfl
  rw [hmul, dyadic]
  congr 2
  by_cases ha0 : a = 0
  · rw [ha0, Nat.zero_mul, parts_zero, parts_zero, parts]
    split <;> rfl
  · by_cases hb0 : b = 0
    · rw [hb0, Nat.mul_zero, parts_zero, parts_zero, parts_of_ne_zero ha0]
      rfl
    · have hne : a * b ≠ 0 := Nat.mul_ne_zero ha0 hb0
      have hla := log2_le ha
      have hlb := log2_le hb
      have hlab : a.log2 ≤ (a * b).log2 := (Nat.le_log2 hne).mpr
        (Nat.le_trans (Nat.log2_self_le ha0) (Nat.le_mul_of_pos_right a (Nat.pos_of_ne_zero hb0)))
      have hlab' : b.log2 ≤ (a * b).log2 := (Nat.le_log2 hne).mpr
        (Nat.le_trans (Nat.log2_self_le hb0) (Nat.le_mul_of_pos_left b (Nat.pos_of_ne_zero ha0)))
      have hfilled : filled a * filled b = a * b * 2 ^ ((52 - a.log2) + (52 - b.log2)) := by
        rw [filled, filled, Nat.pow_add, Nat.mul_mul_mul_comm]
      rw [parts_of_ne_zero ha0, parts_of_ne_zero hb0, mul, hfilled]
      have hround := roundWithAccuracy_exact hne hab (j := (52 - a.log2) + (52 - b.log2))
        (by omega) (f := e - (52 - a.log2 : Nat) + (f - (52 - b.log2 : Nat))) (by omega)
      exact hround.trans (congrArg (parts (a * b)) (by omega))

/-- **A quotient by a power of two is exact.** -/
theorem div_two_pow {a : Nat} (ha : a < 2 ^ 53) {e : Int} {n : Nat} (he : -1022 ≤ e)
    (he' : e ≤ 971) (hn : n ≤ 971) (hen : -969 ≤ e - n) :
    dyadic a e / dyadic 1 n = dyadic a (e - n) := by
  have hdiv : dyadic a e / dyadic 1 n
      = .ofModel (.pack (div .binary64 (parts a e) (parts 1 n))) := by
    rw [← unpack_dyadic ha he he', ← unpack_dyadic (k := 1) (by decide) (e := (n : Int)) (by omega)
      (by omega)]
    rfl
  rw [hdiv, dyadic]
  congr 2
  have hone : parts 1 n = .finite .positive (2 ^ 52) (n - 52) (by decide) :=
    parts_of_ne_zero (by decide) n
  by_cases ha0 : a = 0
  · rw [ha0, parts_zero, parts_zero, hone]
    rfl
  · have hla := log2_le ha
    -- the divisor is a single bit, and the dividend is shifted one place beyond it
    have hshift : filled a <<< 53 = a * 2 ^ (53 - a.log2) * 2 ^ 52 := by
      rw [filled, Nat.shiftLeft_eq, Nat.mul_assoc, Nat.mul_assoc, ← Nat.pow_add, ← Nat.pow_add]
      congr 2
      omega
    have hcore : divCore .binary64 (filled a) (e - (52 - a.log2 : Nat)) (2 ^ 52) (n - 52)
        = (a * 2 ^ (53 - a.log2), e - (52 - a.log2 : Nat) - (n - 52) - 53, .exact) := by
      have htarget : min (e - (52 - a.log2 : Nat) - (n - 52))
          (Format.binary64.targetExponent (totalExponent (filled a) (e - (52 - a.log2 : Nat))
            - totalExponent (2 ^ 52) (n - 52)))
          = e - (52 - a.log2 : Nat) - (n - 52) - 53 := by
        simp only [Format.targetExponent, totalExponent, log2_filled ha0 ha, Nat.log2_two_pow,
          Format.mantissaBits, Format.minExponent]
        omega
      have hamount : (e - (52 - a.log2 : Nat) - (n - 52)
          - (e - (52 - a.log2 : Nat) - (n - 52) - 53)).toNat = 53 := by omega
      rw [divCore]
      simp only [htarget, hamount, hshift]
      rw [Nat.mul_div_cancel _ (Nat.two_pow_pos 52), Nat.mul_mod_left]
      rfl
    rw [parts_of_ne_zero ha0, hone, div, hcore]
    have hround := roundWithAccuracy_exact ha0 ha (j := 53 - a.log2) (by omega)
      (f := e - (52 - a.log2 : Nat) - (n - 52) - 53) (by omega)
    exact hround.trans (congrArg (parts a) (by omega))

/-! ## Integers -/

theorem normalize_natCast {k : Nat} (hlt : k < 2 ^ 53) :
    UnpackedFloat.normalize .binary64 (k : Int) 0 .positive = parts k 0 := by
  by_cases hk : k = 0
  · rw [hk, parts_zero]
    rfl
  · have hlog := log2_le hlt
    have hpos : compare (k : Int) 0 = .gt := Int.compare_eq_gt.mpr (by omega)
    have htarget : Format.binary64.targetExponent (totalExponent k 0) = -(52 - k.log2 : Nat) := by
      simp only [Format.targetExponent, totalExponent, Format.mantissaBits, Format.minExponent]
      omega
    have hamount : (0 - -((52 - k.log2 : Nat) : Int)).toNat = 52 - k.log2 := by omega
    rw [UnpackedFloat.normalize, hpos]
    simp only [Int.toNat_natCast]
    rw [UnpackedFloat.round, htarget]
    simp only [decreaseExponent, hamount, Nat.shiftLeft_eq]
    have hround := roundWithAccuracy_exact hk hlt (Nat.le_refl _)
      (f := 0 - ((52 - k.log2 : Nat) : Int)) (by omega)
    exact hround.trans (congrArg (parts k) (by omega))

/-- **Integers below `2 ^ 53` are read exactly.** -/
theorem ofNat_eq_dyadic {k : Nat} (hlt : k < 2 ^ 53) : Float.ofNat k = dyadic k 0 := by
  have hword : k.toUInt64.toNat = k := by
    show k % 2 ^ 64 = k
    omega
  have hread : k.toUInt64.toFloat = dyadic k 0 := by
    show Float.ofModel
      (.pack (UnpackedFloat.normalize .binary64 (k.toUInt64.toNat : Int) 0 .positive)) = _
    rw [hword, normalize_natCast hlt]
    rfl
  -- an integer is read as a decimal, and so it is multiplied by a power of ten, here one
  have hone : Float.exactlyRepresentablePowersOfTen[0] = dyadic 1 0 := by
    show Float.ofBits 0x3FF0000000000000 = dyadic 1 0
    decide +kernel
  rw [Float.ofNat]
  show Float.ofScientific k false 0 = _
  rw [Float.ofScientific, dif_pos ⟨hlt, Nat.zero_le 22⟩]
  show k.toUInt64.toFloat * Float.exactlyRepresentablePowersOfTen[0] = dyadic k 0
  rw [hread, hone, mul_dyadic hlt (by decide) (by omega) (by decide) (by decide) (by decide)
    (by decide) (by decide), Nat.mul_one]
  rfl

/-! ## Whole parts -/

theorem decode?_dyadic {k : Nat} (hk : k ≠ 0) (hlt : k < 2 ^ 53) {e : Int} (hlow : -1022 ≤ e)
    (hhigh : e ≤ 971) :
    decode? (dyadic k e) = some ⟨false, filled k, e - (52 - k.log2 : Nat)⟩ := by
  rw [decode?, unpack_dyadic hlt hlow hhigh, parts_of_ne_zero hk]
  rfl

theorem decode?_zero (e : Int) : decode? (dyadic 0 e) = some ⟨false, 0, -1074⟩ := by
  rw [dyadic, parts_zero]
  rfl

theorem whole_zero (e : Int) : (⟨false, 0, e⟩ : Finite).whole = 0 := by
  rw [Finite.whole]
  split
  · exact Nat.zero_mul _
  · exact Nat.zero_div _

theorem isWhole_zero (e : Int) : (⟨false, 0, e⟩ : Finite).isWhole = true := by
  rw [Finite.isWhole, Nat.zero_mod]
  exact Bool.or_true _

/-- The parts of `k / 2 ^ n`, of which the whole part is a quotient of natural numbers. -/
theorem whole_filled (k n : Nat) :
    (⟨false, filled k, -n - (52 - k.log2 : Nat)⟩ : Finite).whole = k / 2 ^ n := by
  rw [Finite.whole]
  dsimp only
  split
  · next hnonneg =>
    obtain ⟨rfl, hlog⟩ : n = 0 ∧ 52 - k.log2 = 0 := by omega
    rw [filled, hlog]
    show k * 1 * 1 = k / 1
    omega
  · have hexp : (-(-(n : Int) - (52 - k.log2 : Nat))).toNat = n + (52 - k.log2) := by omega
    rw [hexp, filled]
    show k * 2 ^ (52 - k.log2) / 2 ^ (n + (52 - k.log2)) = _
    rw [Nat.pow_add, Nat.mul_div_mul_right _ _ (Nat.two_pow_pos _)]

theorem isWhole_filled (k n : Nat) :
    (⟨false, filled k, -n - (52 - k.log2 : Nat)⟩ : Finite).isWhole = true ↔ k % 2 ^ n = 0 := by
  rw [Finite.isWhole]
  dsimp only
  rw [Bool.or_eq_true, decide_eq_true_eq, beq_iff_eq]
  have hexp : (-(-(n : Int) - (52 - k.log2 : Nat))).toNat = n + (52 - k.log2) := by omega
  have hmod : filled k % Nat.pow 2 (n + (52 - k.log2)) = k % 2 ^ n * 2 ^ (52 - k.log2) := by
    show k * 2 ^ (52 - k.log2) % 2 ^ (n + (52 - k.log2)) = _
    rw [Nat.pow_add, Nat.mul_mod_mul_right]
  rw [hexp, hmod]
  constructor
  · rintro (hnonneg | hzero)
    · obtain ⟨rfl, -⟩ : n = 0 ∧ 52 - k.log2 = 0 := by omega
      exact Nat.mod_one k
    · exact (Nat.mul_eq_zero.mp hzero).resolve_right (Nat.ne_of_gt (Nat.two_pow_pos _))
  · intro hzero
    exact .inr (by rw [hzero, Nat.zero_mul])

/-- **The integer below `k / 2 ^ n`** is the quotient of natural numbers. -/
theorem floor_dyadic {k n : Nat} (hlt : k < 2 ^ 53) (hn : n ≤ 1022) :
    floor (dyadic k (-n)) = dyadic (k / 2 ^ n) 0 := by
  by_cases hk : k = 0
  · rw [floor, hk, decode?_zero]
    dsimp only
    rw [if_pos (isWhole_zero _), Nat.zero_div, dyadic, dyadic, parts_zero, parts_zero]
  · rw [floor, decode?_dyadic hk hlt (by omega) (by omega)]
    dsimp only
    by_cases hwhole : k % 2 ^ n = 0
    · rw [if_pos ((isWhole_filled k n).mpr hwhole)]
      have hsplit : k / 2 ^ n * 2 ^ n = k := Nat.div_mul_cancel (Nat.dvd_of_mod_eq_zero hwhole)
      have hmove := dyadic_mul_two_pow n (hsplit.symm ▸ hlt) (-n)
      rw [hsplit, Int.add_left_neg] at hmove
      exact hmove
    · rw [if_neg fun h => hwhole ((isWhole_filled k n).mp h)]
      rw [if_neg Bool.false_ne_true, whole_filled k n]
      exact ofNat_eq_dyadic (Nat.lt_of_le_of_lt (Nat.div_le_self k _) hlt)

/-- **The integer part of an integer** is that integer. -/
theorem clamp_dyadic {k : Nat} (hlt : k < 2 ^ 53) (low high : Int) :
    clamp low high (dyadic k 0) = max low (min high k) := by
  by_cases hk : k = 0
  · rw [clamp, hk, decode?_zero]
    show max low (min high (Finite.whole _ : Int)) = _
    rw [whole_zero]
  · have hwhole := whole_filled k 0
    rw [Nat.pow_zero, Nat.div_one] at hwhole
    rw [clamp, decode?_dyadic hk hlt (by decide) (by decide)]
    show max low (min high (Finite.whole _ : Int)) = _
    rw [show (0 : Int) - (52 - k.log2 : Nat) = -(0 : Nat) - (52 - k.log2 : Nat) by omega, hwhole]

end Binary64

end Arithmancy
