import Mathlib
import Arithmancy.Proofs.Number.Dyadic

/-!
# The value of a floating-point number

A finite floating-point number stands for a rational, its value. What does not round is
read off that value: the order (`le_iff`, `lt_iff`, `beq_iff`), the sign (`value?_neg`), and
the integers below and above (`value?_floor`, `value?_ceil`).

The order compares exponents before it compares significands. That is right because the parts
of a number are canonical (`Canonical`): unless the exponent is the least one, the significand
has all its 53 bits, so that the greater exponent belongs to the greater number.
-/

namespace Arithmancy

namespace Binary64

open Float.Model (UnpackedFloat Format)
open Float.Model.UnpackedFloat

/-! ## Canonical parts -/

/-- **The parts of a floating-point number**: a significand of at most 53 bits and an
exponent in range, where the significand has a leading bit unless the exponent is the least
one. -/
structure Canonical (m : Nat) (e : Int) : Prop where
  /-- The significand fits. -/
  lt : m < 2 ^ 53
  /-- The exponent is not below the least one. -/
  low : -1074 ≤ e
  /-- The exponent is not above the greatest one. -/
  high : e ≤ 971
  /-- Only small numbers have a short significand. -/
  full : 2 ^ 52 ≤ m ∨ e = -1074

theorem canonical_zero : Canonical 0 (-1074) := ⟨by decide, by decide, by decide, .inr rfl⟩

/-- What is unpacked is canonical. -/
theorem canonical_of_unpack {b : BitVec Format.binary64.numBits} {s : Sign} {m : Nat} {e : Int}
    {hm : 0 < m} (h : unpack .binary64 b = .finite s m e hm) : Canonical m e := by
  have hmantissa := (@unpackMantissa .binary64 b).isLt
  have hexponent := (@unpackExponent .binary64 b).isLt
  rw [unpack] at h
  split at h
  · split at h <;> cases h
  · next hones =>
    split at h
    · next hzeros =>
      split at h
      · cases h
      · cases h
        rw [hzeros]
        exact ⟨Nat.lt_trans hmantissa (by decide), by decide, by decide, .inr rfl⟩
    · next hzeros =>
      cases h
      have hne : (@unpackExponent .binary64 b).toNat ≠ 0 := fun h0 =>
        hzeros (BitVec.eq_of_toNat_eq h0)
      have hne' : (@unpackExponent .binary64 b).toNat ≠ 2047 := fun h0 =>
        hones (BitVec.eq_of_toNat_eq h0)
      have hsplit : (1#1 ++ @unpackMantissa .binary64 b).toNat
          = 2 ^ 52 + (@unpackMantissa .binary64 b).toNat := by
        rw [BitVec.toNat_append, ← Nat.shiftLeft_add_eq_or_of_lt hmantissa]
        rfl
      have hbias : (Format.binary64.exponentBias : Int)
          + Format.binary64.mantissaBitsWithoutImplicit = 1075 := rfl
      change _ < 2 ^ 52 at hmantissa
      change _ < 2 ^ 11 at hexponent
      rw [hsplit, hbias]
      exact ⟨by omega, by omega, by omega, .inl (by omega)⟩

theorem canonical_of_decode? {x : Float} {d : Finite} (h : decode? x = some d) :
    Canonical d.significand d.exponent := by
  unfold decode? at h
  split at h
  · next hunpack =>
    obtain rfl := Option.some.inj h
    exact canonical_of_unpack hunpack
  · obtain rfl := Option.some.inj h
    exact canonical_zero
  · cases h

/-- **What is packed is unpacked again**, however short the significand. -/
theorem unpack_pack_canonical {s : Sign} {m : Nat} {e : Int} (hm : 0 < m) (h : Canonical m e) :
    (Float.Model.pack (.finite s m e hm)).unpack = .finite s m e hm := by
  show unpack .binary64 (pack .binary64 (.finite s m e hm)) = _
  by_cases hfull : 2 ^ 52 ≤ m
  · exact unpack_pack hm ((Nat.log2_eq_iff (Nat.ne_of_gt hm)).mpr ⟨hfull, h.lt⟩) h.low h.high
  · obtain rfl : e = -1074 := h.full.resolve_left hfull
    have hlog : m.log2 < 52 := (Nat.log2_lt (Nat.ne_of_gt hm)).mpr (Nat.lt_of_not_le hfull)
    have hshort : m.log2 + 1 ≠ 53 := by omega
    have htoNat : (BitVec.ofNat 52 m).toNat = m := by
      rw [BitVec.toNat_ofNat]
      omega
    have hne : BitVec.ofNat 52 m ≠ 0#52 := fun h0 => by
      have := htoNat.symm.trans (congrArg BitVec.toNat h0)
      exact absurd this (Nat.ne_of_gt hm)
    rw [pack]
    dsimp only
    rw [if_neg (by decide), if_neg (show m.log2 + 1 ≠ Format.binary64.mantissaBits from hshort),
      unpack]
    simp only [unpackMantissa_packComponents, unpackExponent_packComponents,
      unpackSign_packComponents, Sign.ofBitVec_toBitVec, htoNat]
    rw [if_neg (by decide), if_pos trivial, dif_neg hne]
    rfl

/-! ## Values -/

/-- The rational that the parts stand for. -/
def Finite.value (d : Finite) : ℚ :=
  if d.negative then -(d.significand * 2 ^ d.exponent) else d.significand * 2 ^ d.exponent

/-- **The value of a number**, if it is finite. -/
def value? (x : Float) : Option ℚ := (decode? x).map Finite.value

theorem value?_of_decode? {x : Float} {d : Finite} (h : decode? x = some d) :
    value? x = some d.value :=
  congrArg (Option.map Finite.value) h

theorem two_zpow_pos (e : ℤ) : (0 : ℚ) < 2 ^ e := zpow_pos two_pos e

theorem magnitude_pos {m : Nat} (hm : 0 < m) (e : ℤ) : (0 : ℚ) < m * 2 ^ e :=
  mul_pos (Nat.cast_pos.mpr hm) (two_zpow_pos e)

theorem zero_magnitude (e : ℤ) : ((0 : ℕ) : ℚ) * 2 ^ e = 0 := by rw [Nat.cast_zero, zero_mul]

/-- A magnitude with a sign. -/
def signed : Sign → ℚ → ℚ
  | .positive, q => q
  | .negative, q => -q

theorem signed_zero (s : Sign) : signed s 0 = 0 := by
  cases s with
  | positive => rfl
  | negative => exact neg_zero

/-- **What parts denote**: a signed magnitude, or zero. -/
inductive Denotes : UnpackedFloat → ℚ → Prop where
  /-- A number with a sign. -/
  | finite {s : Sign} {m : Nat} {e : Int} {hm : 0 < m} (h : Canonical m e) :
      Denotes (.finite s m e hm) (signed s (m * 2 ^ e))
  /-- Zero, of either sign. -/
  | zero (s : Sign) : Denotes (.zero s) 0

theorem value?_eq_some_iff {x : Float} {v : ℚ} :
    value? x = some v ↔ Denotes x.toModel.unpack v := by
  have hfinite (s : Sign) (m : Nat) (e : Int) :
      (⟨s == .negative, m, e⟩ : Finite).value = signed s (m * 2 ^ e) := by cases s <;> rfl
  have hzero (s : Sign) : (⟨s == .negative, 0, -1074⟩ : Finite).value = 0 := by
    rw [hfinite, zero_magnitude, signed_zero]
  unfold value? decode?
  constructor
  · intro h
    split at h
    · next s m e hm hunpack =>
      obtain rfl := Option.some.inj h
      rw [hunpack, hfinite]
      exact .finite (canonical_of_unpack hunpack)
    · next s hunpack =>
      obtain rfl := Option.some.inj h
      rw [hunpack, hzero]
      exact .zero s
    · cases h
  · intro h
    generalize x.toModel.unpack = u at h
    cases h with
    | finite _ => exact congrArg some (hfinite _ _ _)
    | zero s => exact congrArg some (hzero s)

/-- A number has a value, or it is undefined or infinite. -/
theorem value?_cases (x : Float) :
    (∃ v, value? x = some v) ∨ x.toModel.unpack = .notANumber
      ∨ ∃ s, x.toModel.unpack = .infinity s := by
  unfold value? decode?
  cases x.toModel.unpack with
  | finite _ _ _ _ | zero _ => exact .inl ⟨_, rfl⟩
  | notANumber => exact .inr (.inl rfl)
  | infinity s => exact .inr (.inr ⟨s, rfl⟩)

/-! ## Order -/

/-- The greater exponent belongs to the greater number, if its significand is full. -/
theorem magnitude_lt {m n : Nat} {e f : ℤ} (hm : m < 2 ^ 53) (hn : 2 ^ 52 ≤ n) (h : e < f) :
    (m : ℚ) * 2 ^ e < n * 2 ^ f := by
  calc (m : ℚ) * 2 ^ e
      < (2 ^ 53 : ℕ) * 2 ^ e := mul_lt_mul_of_pos_right (Nat.cast_lt.mpr hm) (two_zpow_pos e)
    _ = (2 ^ 52 : ℕ) * 2 ^ (e + 1) := by
        rw [zpow_add_one₀ two_ne_zero]
        push_cast
        ring
    _ ≤ (2 ^ 52 : ℕ) * 2 ^ f :=
        mul_le_mul_of_nonneg_left (zpow_le_zpow_right₀ one_le_two h) (Nat.cast_nonneg _)
    _ ≤ n * 2 ^ f := mul_le_mul_of_nonneg_right (Nat.cast_le.mpr hn) (two_zpow_pos f).le

/-- **Comparing parts is comparing magnitudes.** -/
theorem compare_magnitude {m n : Nat} {e f : Int} (hm : Canonical m e) (hn : Canonical n f) :
    (compare e f).then (compare m n) = compare ((m : ℚ) * 2 ^ e) (n * 2 ^ f) := by
  rcases lt_trichotomy e f with h | rfl | h
  · have hfull : 2 ^ 52 ≤ n := hn.full.resolve_right fun h0 => by have := hm.low; omega
    rw [compare_lt_iff_lt.mpr h, compare_lt_iff_lt.mpr (magnitude_lt hm.lt hfull h)]
    rfl
  · have hcompare : compare ((m : ℚ) * 2 ^ e) (n * 2 ^ e) = compare m n := by
      rcases lt_trichotomy m n with h | rfl | h
      · rw [compare_lt_iff_lt.mpr h, compare_lt_iff_lt]
        exact mul_lt_mul_of_pos_right (Nat.cast_lt.mpr h) (two_zpow_pos e)
      · rw [compare_eq_iff_eq.mpr rfl, compare_eq_iff_eq.mpr rfl]
      · rw [compare_gt_iff_gt.mpr h, compare_gt_iff_gt]
        exact mul_lt_mul_of_pos_right (Nat.cast_lt.mpr h) (two_zpow_pos e)
    rw [compare_eq_iff_eq.mpr rfl, hcompare]
    rfl
  · have hfull : 2 ^ 52 ≤ m := hm.full.resolve_right fun h0 => by have := hn.low; omega
    rw [compare_gt_iff_gt.mpr h, compare_gt_iff_gt.mpr (magnitude_lt hn.lt hfull h)]
    rfl

theorem swap_compare_eq_compare_neg (a b : ℚ) : (compare a b).swap = compare (-a) (-b) := by
  rcases lt_trichotomy a b with h | rfl | h
  · rw [compare_lt_iff_lt.mpr h, compare_gt_iff_gt.mpr (neg_lt_neg h)]
    rfl
  · rw [compare_eq_iff_eq.mpr rfl, compare_eq_iff_eq.mpr rfl]
    rfl
  · rw [compare_gt_iff_gt.mpr h, compare_lt_iff_lt.mpr (neg_lt_neg h)]
    rfl

/-- **Parts compare as what they denote.** -/
theorem Denotes.compare_eq {x y : UnpackedFloat} {v w : ℚ} (hx : Denotes x v)
    (hy : Denotes y w) : x.compare y = some (compare v w) := by
  have hpos {m : Nat} (hm : 0 < m) (e : ℤ) := magnitude_pos hm e
  have hneg {m : Nat} (hm : 0 < m) (e : ℤ) := neg_lt_zero.mpr (magnitude_pos hm e)
  cases hx with
  | @finite s m e hm hxc =>
    cases hy with
    | @finite t n f hn hyc =>
      match s, t with
      | .positive, .positive => exact congrArg some (compare_magnitude hxc hyc)
      | .positive, .negative =>
        exact congrArg some (compare_gt_iff_gt.mpr ((hneg hn f).trans (hpos hm e))).symm
      | .negative, .positive =>
        exact congrArg some (compare_lt_iff_lt.mpr ((hneg hm e).trans (hpos hn f))).symm
      | .negative, .negative =>
        refine congrArg some ?_
        rw [compare_magnitude hxc hyc]
        exact swap_compare_eq_compare_neg _ _
    | zero =>
      match s with
      | .positive => exact congrArg some (compare_gt_iff_gt.mpr (hpos hm e)).symm
      | .negative => exact congrArg some (compare_lt_iff_lt.mpr (hneg hm e)).symm
  | zero =>
    cases hy with
    | @finite t n f hn _ =>
      match t with
      | .positive => exact congrArg some (compare_lt_iff_lt.mpr (hpos hn f)).symm
      | .negative => exact congrArg some (compare_gt_iff_gt.mpr (hneg hn f)).symm
    | zero => exact congrArg some (compare_eq_iff_eq.mpr rfl).symm

theorem lt_def {x y : Float} :
    x < y ↔ (x.toModel.unpack.compare y.toModel.unpack == some .lt) = true :=
  decide_eq_true_iff

theorem le_def {x y : Float} :
    x ≤ y ↔ (x.toModel.unpack.compare y.toModel.unpack).any (·.isLE) = true :=
  decide_eq_true_iff

section Order

variable {x y : Float} {v w : ℚ}

theorem lt_iff (hx : value? x = some v) (hy : value? y = some w) : x < y ↔ v < w := by
  have hcompare := (value?_eq_some_iff.mp hx).compare_eq (value?_eq_some_iff.mp hy)
  rw [lt_def, hcompare, ← compare_lt_iff_lt (a := v)]
  cases compare v w <;> decide

theorem le_iff (hx : value? x = some v) (hy : value? y = some w) : x ≤ y ↔ v ≤ w := by
  have hcompare := (value?_eq_some_iff.mp hx).compare_eq (value?_eq_some_iff.mp hy)
  rw [le_def, hcompare, ← compare_le_iff_le]
  exact Ordering.isLE_iff_ne_gt

theorem beq_iff (hx : value? x = some v) (hy : value? y = some w) :
    (x == y) = true ↔ v = w := by
  have hcompare := (value?_eq_some_iff.mp hx).compare_eq (value?_eq_some_iff.mp hy)
  show (x.toModel.unpack.compare y.toModel.unpack == some .eq) = true ↔ v = w
  rw [hcompare, ← compare_eq_iff_eq (a := v)]
  cases compare v w <;> decide

end Order

/-! ## Signs -/

/-- Canonical parts denote the same when they have been packed. -/
theorem denotes_pack {s : Sign} {m : Nat} {e : Int} (hm : 0 < m) (h : Canonical m e) :
    Denotes (Float.Model.pack (.finite s m e hm)).unpack (signed s (m * 2 ^ e)) := by
  rw [unpack_pack_canonical hm h]
  exact .finite h

theorem denotes_pack_zero (s : Sign) : Denotes (Float.Model.pack (.zero s)).unpack 0 := by
  cases s with
  | positive => exact .zero .positive
  | negative => exact .zero .negative

theorem signed_neg (s : Sign) (q : ℚ) : signed (-s) q = -signed s q := by
  cases s with
  | positive => rfl
  | negative => exact (neg_neg q).symm

/-- Parts with the opposite sign denote the opposite number. -/
theorem Denotes.pack_neg {x : UnpackedFloat} {v : ℚ} (h : Denotes x v) :
    Denotes (Float.Model.pack x.neg).unpack (-v) := by
  cases h with
  | @finite s m e hm h =>
    rw [← signed_neg]
    exact denotes_pack hm h
  | zero s =>
    rw [neg_zero]
    exact denotes_pack_zero (-s)

theorem value?_neg {x : Float} {v : ℚ} (h : value? x = some v) : value? (-x) = some (-v) :=
  value?_eq_some_iff.mpr (value?_eq_some_iff.mp h).pack_neg

/-! ## Numbers that are exact -/

theorem value?_dyadic {k : Nat} (hlt : k < 2 ^ 53) {e : Int} (hlow : -1022 ≤ e)
    (hhigh : e ≤ 971) : value? (dyadic k e) = some ((k : ℚ) * 2 ^ e) := by
  by_cases hk : k = 0
  · subst hk
    rw [value?, decode?_zero, zero_magnitude]
    exact congrArg some (zero_magnitude _)
  · rw [value?, decode?_dyadic hk hlt hlow hhigh, Option.map_some]
    refine congrArg some (show (filled k : ℚ) * 2 ^ (e - (52 - k.log2 : ℕ)) = _ from ?_)
    have hsplit : (2 : ℚ) ^ e = 2 ^ (52 - k.log2) * 2 ^ (e - (52 - k.log2 : ℕ)) := by
      rw [← zpow_natCast, ← zpow_add₀ two_ne_zero]
      congr 1
      omega
    rw [filled, hsplit]
    push_cast
    ring

/-- **An integer below `2 ^ 53` is its own value.** -/
theorem value?_ofNat {k : Nat} (hlt : k < 2 ^ 53) : value? (Float.ofNat k) = some (k : ℚ) := by
  rw [ofNat_eq_dyadic hlt, value?_dyadic hlt (by decide) (by decide), zpow_zero, mul_one]

theorem value?_half : value? (0.5 : Float) = some (1 / 2) := by
  have hdecode : decode? (0.5 : Float) = some ⟨false, 2 ^ 52, -53⟩ := by decide +kernel
  rw [value?_of_decode? hdecode]
  norm_num [Finite.value]

/-! ## The integers below and above -/

/-- A magnitude with a fraction is a quotient of natural numbers. -/
theorem Finite.magnitude_eq_div {d : Finite} (h : d.exponent < 0) :
    (d.significand : ℚ) * 2 ^ d.exponent
      = d.significand / (2 ^ (-d.exponent).toNat : ℕ) := by
  have hexp : d.exponent = -((-d.exponent).toNat : ℤ) := by omega
  conv_lhs => rw [hexp, zpow_neg, zpow_natCast, ← div_eq_mul_inv]
  push_cast
  rfl

/-- A magnitude that is whole is its whole part. -/
theorem Finite.magnitude_of_isWhole {d : Finite} (h : d.isWhole = true) :
    (d.significand : ℚ) * 2 ^ d.exponent = d.whole := by
  rw [isWhole, Bool.or_eq_true, decide_eq_true_eq, beq_iff_eq] at h
  by_cases hexp : 0 ≤ d.exponent
  · have htoNat : d.exponent = (d.exponent.toNat : ℤ) := by omega
    have hwhole : d.whole = d.significand * 2 ^ d.exponent.toNat := if_pos hexp
    rw [hwhole, htoNat, zpow_natCast]
    push_cast
    rfl
  · have hwhole : d.whole = d.significand / 2 ^ (-d.exponent).toNat := if_neg hexp
    have hdvd : 2 ^ (-d.exponent).toNat ∣ d.significand :=
      Nat.dvd_of_mod_eq_zero (h.resolve_left hexp)
    have hne : ((2 ^ (-d.exponent).toNat : ℕ) : ℚ) ≠ 0 := by positivity
    rw [hwhole, magnitude_eq_div (by omega), Nat.cast_div hdvd hne]

/-- A magnitude that is not whole lies above its whole part, by less than one. -/
theorem Finite.magnitude_of_not_isWhole {d : Finite} (h : ¬d.isWhole = true) :
    d.exponent < 0 ∧ (d.whole : ℚ) < d.significand * 2 ^ d.exponent
      ∧ (d.significand : ℚ) * 2 ^ d.exponent < d.whole + 1 := by
  rw [isWhole, Bool.or_eq_true, decide_eq_true_eq, beq_iff_eq, not_or] at h
  obtain ⟨hexp, hmod⟩ := h
  change ¬d.significand % 2 ^ (-d.exponent).toNat = 0 at hmod
  have hwhole : d.whole = d.significand / 2 ^ (-d.exponent).toNat := if_neg hexp
  have hpos : 0 < 2 ^ (-d.exponent).toNat := Nat.two_pow_pos _
  have hsplit := Nat.div_add_mod' d.significand (2 ^ (-d.exponent).toNat)
  have hlt := Nat.mod_lt d.significand hpos
  rw [magnitude_eq_div (by omega), hwhole, lt_div_iff₀ (by exact_mod_cast hpos),
    div_lt_iff₀ (by exact_mod_cast hpos)]
  refine ⟨by omega, ?_, ?_⟩
  · exact_mod_cast show _ * _ < d.significand by omega
  · have hadd : (d.significand / 2 ^ (-d.exponent).toNat + 1) * 2 ^ (-d.exponent).toNat
        = d.significand / 2 ^ (-d.exponent).toNat * 2 ^ (-d.exponent).toNat
          + 2 ^ (-d.exponent).toNat := Nat.succ_mul _ _
    exact_mod_cast show d.significand < _ by omega

/-- A number that is not whole is small, so that its whole part is a number. -/
theorem Finite.whole_add_one_lt {d : Finite} (hlt : d.significand < 2 ^ 53)
    (hexp : d.exponent < 0) : d.whole + 1 < 2 ^ 53 := by
  have hwhole : d.whole = d.significand / 2 ^ (-d.exponent).toNat := if_neg (by omega)
  have hhalf : d.significand / 2 ^ (-d.exponent).toNat ≤ d.significand / 2 :=
    Nat.div_le_div_left
      (Nat.le_self_pow (n := (-d.exponent).toNat) (by omega) 2) Nat.two_pos
  omega

/-- **The integer below a number** is the floor of its value. -/
theorem value?_floor {x : Float} {v : ℚ} (h : value? x = some v) :
    value? (floor x) = some (⌊v⌋ : ℚ) := by
  obtain ⟨d, hd, rfl⟩ := Option.map_eq_some_iff.mp h
  rw [floor, hd]
  dsimp only
  split
  · next hwhole =>
    -- a whole number is its own floor
    rw [h]
    have hcast : ∃ z : ℤ, d.value = z := by
      rw [Finite.value, Finite.magnitude_of_isWhole hwhole]
      split
      · exact ⟨-d.whole, by push_cast; ring⟩
      · exact ⟨d.whole, by push_cast; ring⟩
    obtain ⟨z, hz⟩ := hcast
    rw [hz, Int.floor_intCast]
  · next hwhole =>
    obtain ⟨hexp, hlow, hhigh⟩ := Finite.magnitude_of_not_isWhole hwhole
    have hsmall := Finite.whole_add_one_lt (canonical_of_decode? hd).lt hexp
    split
    · next hnegative =>
      have hfloor : ⌊d.value⌋ = -(d.whole + 1 : ℤ) := by
        rw [Finite.value, if_pos hnegative, Int.floor_eq_iff]
        push_cast
        exact ⟨by linarith, by linarith⟩
      rw [value?_neg (value?_ofNat hsmall), hfloor]
      push_cast
      rfl
    · next hpositive =>
      have hfloor : ⌊d.value⌋ = (d.whole : ℤ) := by
        rw [Finite.value, if_neg hpositive, Int.floor_eq_iff]
        exact ⟨by exact_mod_cast hlow.le, by exact_mod_cast hhigh⟩
      rw [value?_ofNat (by omega), hfloor]
      rfl

/-- **The integer above a number** is the ceiling of its value. -/
theorem value?_ceil {x : Float} {v : ℚ} (h : value? x = some v) :
    value? (ceil x) = some (⌈v⌉ : ℚ) := by
  rw [ceil, value?_neg (value?_floor (value?_neg h)), Int.floor_neg]
  push_cast
  rw [neg_neg]

end Binary64

end Arithmancy
