import Mathlib
import Arithmancy.Proofs.Number.Value

/-!
# Rounding leaps over no number

The result of an operation is rounded to a number next to it: no floating-point number lies
strictly between the exact result and the rounded one (`Faithful`). This is all that is needed
to carry bounds through arithmetic: where the exact result lies between two numbers, the
rounded one lies between them, too (`Faithful.within`).

A significand that is too long is shifted to the right, and two bits keep track of what is
shifted out (`Tracks`). So the rounded significand is one of the two integers around the exact
one, and it is the exact one where that is an integer (`Tracks.rounded_le`,
`Tracks.le_rounded`). A floating-point number whose exponent is smaller lies below both,
because the shifted significand is full (`Nearby`).
-/

namespace Arithmancy

namespace Binary64

open Float.Model (UnpackedFloat Format totalExponent)
open Float.Model.UnpackedFloat

/-! ## Bits that are shifted out -/

/-- **An extended significand keeps track of a magnitude**: the significand is its integer
part, and the bits beyond tell whether there is a fraction. -/
structure Tracks (em : ExtendedMantissa) (q : ℚ) : Prop where
  /-- The significand is not above the magnitude. -/
  low : (em.mantissa : ℚ) ≤ q
  /-- It is less than one below. -/
  high : q < em.mantissa + 1
  /-- The bits are clear exactly if there is no fraction. -/
  clear : q = em.mantissa ↔ em.roundBit = false ∧ em.stickyBit = false

namespace Tracks

variable {em : ExtendedMantissa} {q : ℚ}

theorem mantissa_ofMantissaAndAccuracy (m : Nat) (acc : Accuracy) :
    (ExtendedMantissa.ofMantissaAndAccuracy m acc).mantissa = m := by
  cases acc with
  | exact => rfl
  | inexact o => cases o <;> rfl

theorem ofMantissa (m : Nat) : Tracks (.ofMantissaAndAccuracy m .exact) m :=
  ⟨le_refl _, lt_add_one _, iff_of_true rfl ⟨rfl, rfl⟩⟩

/-- The quotient of natural numbers and its remainder keep track of the exact quotient. -/
theorem ofQuotient (m : Nat) {n : Nat} (hn : 0 < n) :
    Tracks (.ofMantissaAndAccuracy (m / n) (accuracyOfFraction (m % n) n)) (m / n : ℚ) := by
  have hpos : (0 : ℚ) < n := Nat.cast_pos.mpr hn
  have hsplit := Nat.div_add_mod' m n
  have hmod := Nat.mod_lt m hn
  have hsplit' : (m : ℚ) = (m / n : ℕ) * n + (m % n : ℕ) := by exact_mod_cast hsplit.symm
  have hmod' : ((m % n : ℕ) : ℚ) < n := Nat.cast_lt.mpr hmod
  constructor
  · rw [mantissa_ofMantissaAndAccuracy]
    exact Nat.cast_div_le
  · rw [mantissa_ofMantissaAndAccuracy, div_lt_iff₀ hpos]
    linarith
  · rw [mantissa_ofMantissaAndAccuracy, div_eq_iff hpos.ne', hsplit', add_eq_left,
      Nat.cast_eq_zero, accuracyOfFraction]
    by_cases h0 : m % n = 0
    · rw [if_pos h0]
      exact iff_of_true h0 ⟨rfl, rfl⟩
    · rw [if_neg h0]
      generalize compare (2 * (m % n)) n = o
      refine iff_of_false h0 fun hclear => ?_
      cases o with
      | lt => exact Bool.noConfusion hclear.2
      | eq | gt => exact Bool.noConfusion hclear.1

theorem shiftRightOne (h : Tracks em q) : Tracks em.shiftRightOne (q / 2) := by
  have hlow := h.low
  have hhigh := h.high
  have hsplit : (em.mantissa : ℚ) = 2 * (em.mantissa / 2 : ℕ) + (em.mantissa % 2 : ℕ) := by
    exact_mod_cast (Nat.div_add_mod em.mantissa 2).symm
  -- an odd significand loses a bit that is set, and the half of an even one loses none
  rcases Nat.mod_two_eq_zero_or_one em.mantissa with heven | hodd
  · rw [heven, Nat.cast_zero, add_zero] at hsplit
    refine ⟨?_, ?_, ?_⟩
    · show ((em.mantissa / 2 : ℕ) : ℚ) ≤ q / 2
      linarith
    · show q / 2 < (em.mantissa / 2 : ℕ) + 1
      linarith
    · show q / 2 = (em.mantissa / 2 : ℕ)
        ↔ (em.mantissa % 2 != 0) = false ∧ (em.roundBit || em.stickyBit) = false
      rw [heven, Bool.or_eq_false_iff, ← h.clear, hsplit, div_eq_iff two_ne_zero, mul_comm]
      exact (and_iff_right rfl).symm
  · rw [hodd, Nat.cast_one] at hsplit
    refine ⟨?_, ?_, iff_of_false (fun heq => ?_) fun hclear => ?_⟩
    · show ((em.mantissa / 2 : ℕ) : ℚ) ≤ q / 2
      linarith
    · show q / 2 < (em.mantissa / 2 : ℕ) + 1
      linarith
    · change q / 2 = (em.mantissa / 2 : ℕ) at heq
      linarith
    · have hbit : (em.mantissa % 2 != 0) = false := hclear.1
      rw [hodd] at hbit
      cases hbit

theorem shiftRight (h : Tracks em q) (k : Nat) : Tracks (em >>> k) (q / 2 ^ k) := by
  induction k with
  | zero =>
    rw [pow_zero, div_one]
    exact h
  | succ k ih =>
    rw [pow_succ, ← div_div]
    exact ih.shiftRightOne

/-- The significand and the rounded one differ by at most one, and not at all if there is no
fraction. -/
theorem rounded_cases (h : Tracks em q) :
    em.roundedMantissa = em.mantissa
      ∨ em.roundedMantissa = em.mantissa + 1 ∧ (em.mantissa : ℚ) < q := by
  have hclear := h.clear
  have hlow := h.low
  obtain ⟨m, round, sticky⟩ := em
  have hinexact (hbit : ¬(round = false ∧ sticky = false)) : (m : ℚ) < q :=
    lt_of_le_of_ne hlow fun heq => hbit (hclear.mp heq.symm)
  cases round with
  | false => cases sticky <;> exact .inl rfl
  | true =>
    have hlt := hinexact fun hbit => Bool.noConfusion hbit.1
    cases sticky with
    | false =>
      rcases Nat.mod_two_eq_zero_or_one m with heven | hodd
      · exact .inl (congrArg (m + ·) heven)
      · exact .inr ⟨congrArg (m + ·) hodd, hlt⟩
    | true => exact .inr ⟨rfl, hlt⟩

/-- **An integer above** the magnitude is above the rounded significand. -/
theorem rounded_le (h : Tracks em q) {n : Nat} (hn : q ≤ n) : em.roundedMantissa ≤ n := by
  rcases h.rounded_cases with hr | ⟨hr, hlt⟩
  · rw [hr]
    exact Nat.cast_le.mp (h.low.trans hn)
  · rw [hr]
    exact Nat.cast_lt.mp (hlt.trans_le hn)

/-- **An integer below** the magnitude is below the rounded significand. -/
theorem le_rounded (h : Tracks em q) {n : Nat} (hn : (n : ℚ) ≤ q) : n ≤ em.roundedMantissa := by
  have hle : n ≤ em.mantissa := Nat.lt_succ_iff.mp (by exact_mod_cast hn.trans_lt h.high)
  rcases h.rounded_cases with hr | ⟨hr, -⟩ <;> omega

end Tracks

/-! ## The rounded magnitude -/

/-- **`m * 2 ^ e` is next to a magnitude `q`**: it has the shape of a floating-point number,
though its exponent may be too great, and every number of that shape on one side of `q` lies
on that side of `m * 2 ^ e`, too. -/
structure Nearby (q : ℚ) (m : Nat) (e : Int) : Prop where
  /-- The significand fits. -/
  lt : m < 2 ^ 53
  /-- The exponent is not below the least one. -/
  low : -1074 ≤ e
  /-- Only small numbers have a short significand. -/
  full : 2 ^ 52 ≤ m ∨ e = -1074
  /-- A number above `q` is above. -/
  le_of_le {n : Nat} {f : Int} (hn : n < 2 ^ 53) (hf : -1074 ≤ f) (h : q ≤ n * 2 ^ f) :
    (m : ℚ) * 2 ^ e ≤ n * 2 ^ f
  /-- A number below `q` is below. -/
  ge_of_ge {n : Nat} {f : Int} (hn : n < 2 ^ 53) (hf : -1074 ≤ f) (h : n * 2 ^ f ≤ q) :
    (n : ℚ) * 2 ^ f ≤ m * 2 ^ e

theorem targetExponent_eq (t : Int) : Format.binary64.targetExponent t = max (t - 53) (-1074) :=
  rfl

/-- A significand that fits is not shifted. -/
theorem shiftToTargetExponent_of_lt {m : Nat} {e : Int} (hm : m < 2 ^ 53) (he : -1074 ≤ e) :
    shiftToTargetExponent .binary64 m e .exact = (⟨m, false, false⟩, e) := by
  have hlog := log2_le hm
  have hshift : (Format.binary64.targetExponent (totalExponent m e) - e).toNat = 0 := by
    rw [targetExponent_eq, totalExponent]
    omega
  rw [shiftToTargetExponent, shiftToExponent, hshift, Int.natCast_zero, Int.add_zero]
  rfl

/-- A significand that was rounded up to one bit too many is shifted by that bit. -/
theorem shiftToTargetExponent_of_carry {e : Int} (he : -1074 ≤ e) :
    shiftToTargetExponent .binary64 (2 ^ 53) e .exact = (⟨2 ^ 52, false, false⟩, e + 1) := by
  have hshift : (Format.binary64.targetExponent (totalExponent (2 ^ 53) e) - e).toNat = 1 := by
    rw [targetExponent_eq, totalExponent, Nat.log2_two_pow]
    omega
  rw [shiftToTargetExponent, shiftToExponent, hshift]
  rfl

/-- **The rounded significand is next to the magnitude** that an extended significand keeps
track of, at a scale where the significand is full. -/
theorem Tracks.nearby {em : ExtendedMantissa} {q : ℚ} {e : Int} (h : Tracks em q)
    (hfull : 2 ^ 52 ≤ em.mantissa ∨ e = -1074) {n : Nat} {f : Int} (hn : n < 2 ^ 53)
    (hf : -1074 ≤ f) :
    (q * 2 ^ e ≤ n * 2 ^ f → (em.roundedMantissa : ℚ) * 2 ^ e ≤ n * 2 ^ f)
      ∧ (n * 2 ^ f ≤ q * 2 ^ e → (n : ℚ) * 2 ^ f ≤ em.roundedMantissa * 2 ^ e) := by
  rcases le_or_gt e f with hle | hlt
  · -- at a greater scale, the other number is an integer in units of this one
    have hscale : (n : ℚ) * 2 ^ f = (n * 2 ^ (f - e).toNat : ℕ) * 2 ^ e := by
      have hsplit : f = ((f - e).toNat : ℤ) + e := by omega
      conv_lhs => rw [hsplit, zpow_add₀ two_ne_zero, zpow_natCast]
      push_cast
      ring
    rw [hscale, mul_le_mul_iff_of_pos_right (two_zpow_pos e),
      mul_le_mul_iff_of_pos_right (two_zpow_pos e), mul_le_mul_iff_of_pos_right (two_zpow_pos e),
      mul_le_mul_iff_of_pos_right (two_zpow_pos e), Nat.cast_le, Nat.cast_le]
    exact ⟨h.rounded_le, h.le_rounded⟩
  · -- at a smaller scale, it is below a full significand
    have hbelow := magnitude_lt hn (hfull.resolve_right fun h0 => by omega) hlt
    have hlow : (em.mantissa : ℚ) * 2 ^ e ≤ q * 2 ^ e :=
      mul_le_mul_of_nonneg_right h.low (two_zpow_pos e).le
    have hrounded : (em.mantissa : ℚ) * 2 ^ e ≤ em.roundedMantissa * 2 ^ e :=
      mul_le_mul_of_nonneg_right (Nat.cast_le.mpr (h.le_rounded h.low)) (two_zpow_pos e).le
    exact ⟨fun hle => absurd (hlow.trans hle) (not_le.mpr hbelow),
      fun _ => hbelow.le.trans hrounded⟩

/-- The significand that remains after the shift to the right scale: it fits, and it is
full unless the scale is the least one. -/
theorem Tracks.shifted_bounds {m : Nat} {e : Int} {em : ExtendedMantissa} {q : ℚ}
    (hm : em.mantissa = m) (h : Tracks em q)
    (he : e ≤ Format.binary64.targetExponent (totalExponent m e)) {k : Nat}
    (hk : k = (Format.binary64.targetExponent (totalExponent m e) - e).toNat) :
    (em >>> k).mantissa < 2 ^ 53 ∧ (2 ^ 52 ≤ (em >>> k).mantissa ∨ e + k = -1074) := by
  rw [targetExponent_eq, totalExponent] at he hk
  have htracks := h.shiftRight k
  have hpos : (0 : ℚ) < 2 ^ k := by positivity
  constructor
  · have hlt : q < 2 ^ 53 * 2 ^ k := by
      calc q < m + 1 := hm ▸ h.high
        _ ≤ (2 ^ (m.log2 + 1) : ℕ) := by exact_mod_cast Nat.lt_log2_self
        _ ≤ (2 ^ (53 + k) : ℕ) := Nat.cast_le.mpr (Nat.pow_le_pow_right Nat.two_pos (by omega))
        _ = 2 ^ 53 * 2 ^ k := by push_cast; rw [pow_add]
    exact_mod_cast htracks.low.trans_lt ((div_lt_iff₀ hpos).mpr hlt)
  · by_cases hleast : e + k = -1074
    · exact .inr hleast
    · left
      have hne : m ≠ 0 := by
        rintro rfl
        rw [show Nat.log2 0 = 0 from rfl] at he hk
        omega
      have hle : (2 ^ 52 : ℚ) * 2 ^ k ≤ q := by
        calc (2 ^ 52 : ℚ) * 2 ^ k = (2 ^ (52 + k) : ℕ) := by push_cast; rw [pow_add]
          _ ≤ (2 ^ m.log2 : ℕ) := Nat.cast_le.mpr (Nat.pow_le_pow_right Nat.two_pos (by omega))
          _ ≤ m := Nat.cast_le.mpr (Nat.log2_self_le hne)
          _ ≤ q := hm ▸ h.low
      have hlt : ((2 ^ 52 : ℕ) : ℚ) < ((em >>> k).mantissa + 1 : ℕ) := by
        push_cast
        exact ((le_div_iff₀ hpos).mpr hle).trans_lt htracks.high
      exact Nat.lt_succ_iff.mp (Nat.cast_lt.mp hlt)

/-- Unsigned parts with a sign. -/
def signedParts (s : Sign) (c : Nat) (t : Int) : UnpackedFloat :=
  if h : c = 0 then .zero s else .finite s c t (Nat.pos_of_ne_zero h)

/-- **A significand is shifted, and then rounded once.** Provided that nothing has to be shifted to
the left, what is shifted out keeps track of the magnitude at the scale at which the significand is
full. Rounding may carry into one more bit, which is shifted out in turn. -/
theorem exists_shifted {m : Nat} {e : Int} {acc : Accuracy} {q : ℚ}
    (h : Tracks (.ofMantissaAndAccuracy m acc) q)
    (he : e ≤ Format.binary64.targetExponent (totalExponent m e)) (s : Sign) :
    ∃ (k : Nat) (em : ExtendedMantissa), em = ExtendedMantissa.ofMantissaAndAccuracy m acc >>> k
      ∧ Tracks em (q / 2 ^ k) ∧ q / 2 ^ k * 2 ^ (e + k : ℤ) = q * 2 ^ e ∧ -1074 ≤ e + k
      ∧ em.mantissa < 2 ^ 53 ∧ (2 ^ 52 ≤ em.mantissa ∨ e + k = -1074)
      ∧ (em.roundedMantissa < 2 ^ 53 ∧ roundWithAccuracy .binary64 s m e acc
          = signedParts s em.roundedMantissa (e + k)
        ∨ em.roundedMantissa = 2 ^ 53 ∧ roundWithAccuracy .binary64 s m e acc
          = signedParts s (2 ^ 52) (e + k + 1)) := by
  have hm := Tracks.mantissa_ofMantissaAndAccuracy m acc
  generalize hk : (Format.binary64.targetExponent (totalExponent m e) - e).toNat = k
  obtain ⟨hlt, hfull⟩ := h.shifted_bounds hm he hk.symm
  have hlow : -1074 ≤ e + k := by
    rw [targetExponent_eq] at he hk
    omega
  have hunits : q / 2 ^ k * 2 ^ (e + k : ℤ) = q * 2 ^ e := by
    rw [zpow_add₀ two_ne_zero, zpow_natCast]
    field_simp
  have hfirst : shiftToTargetExponent .binary64 m e acc
      = (ExtendedMantissa.ofMantissaAndAccuracy m acc >>> k, e + k) := by
    rw [shiftToTargetExponent, shiftToExponent, hk]
  refine ⟨k, _, rfl, h.shiftRight k, hunits, hlow, hlt, hfull, ?_⟩
  rw [roundWithAccuracy, hfirst]
  dsimp only
  have hrounded := (h.shiftRight k).rounded_cases
  generalize ExtendedMantissa.ofMantissaAndAccuracy m acc >>> k = em at *
  by_cases hfits : em.roundedMantissa < 2 ^ 53
  · rw [shiftToTargetExponent_of_lt hfits hlow]
    exact .inl ⟨hfits, rfl⟩
  · have hcarry : em.roundedMantissa = 2 ^ 53 := by omega
    rw [hcarry, shiftToTargetExponent_of_carry hlow]
    exact .inr ⟨rfl, rfl⟩

/-- A significand that has carried into one more bit stands for the same magnitude. -/
theorem carried (t : Int) : ((2 ^ 52 : ℕ) : ℚ) * 2 ^ (t + 1) = (2 ^ 53 : ℕ) * 2 ^ t := by
  rw [zpow_add_one₀ two_ne_zero]
  push_cast
  ring

/-- **Rounding gives a number next to the magnitude**, provided that nothing has to be
shifted to the left. -/
theorem exists_roundWithAccuracy {m : Nat} {e : Int} {acc : Accuracy} {q : ℚ}
    (h : Tracks (.ofMantissaAndAccuracy m acc) q)
    (he : e ≤ Format.binary64.targetExponent (totalExponent m e)) (s : Sign) :
    ∃ c t, Nearby (q * 2 ^ e) c t ∧ roundWithAccuracy .binary64 s m e acc = signedParts s c t := by
  obtain ⟨k, em, -, htracks, hunits, hlow, hlt, hfull, hround⟩ := exists_shifted h he s
  have hnear {n : Nat} {f : Int} := htracks.nearby hfull (n := n) (f := f)
  rw [hunits] at hnear
  have hrounded := htracks.rounded_cases
  rcases hround with ⟨hfits, hround⟩ | ⟨hcarry, hround⟩
  · refine ⟨em.roundedMantissa, e + k, ⟨hfits, hlow, ?_, fun hn hf => (hnear hn hf).1,
      fun hn hf => (hnear hn hf).2⟩, hround⟩
    omega
  · rw [hcarry, ← carried] at hnear
    exact ⟨2 ^ 52, e + k + 1, ⟨by decide, by omega, .inl (le_refl _),
      fun hn hf => (hnear hn hf).1, fun hn hf => (hnear hn hf).2⟩, hround⟩

/-! ## Faithful rounding -/

/-- **`x` is a faithful rounding of `q`**: a number that is not below `q` is not below `x`,
and one that is not above `q` is not above `x`. -/
def Faithful (q : ℚ) (x : Float) : Prop :=
  ∀ ⦃z : Float⦄ ⦃v : ℚ⦄, value? z = some v → (q ≤ v → x ≤ z) ∧ (v ≤ q → z ≤ x)

theorem faithful_of_value {x : Float} {v : ℚ} (h : value? x = some v) : Faithful v x :=
  fun _ _ hz => ⟨(le_iff h hz).mpr, (le_iff hz h).mpr⟩

section Infinity

variable {u : UnpackedFloat} {v : ℚ}

theorem Denotes.compare_posInfinity (h : Denotes u v) :
    u.compare (.infinity .positive) = some .lt := by
  cases h with
  | @finite s => cases s <;> rfl
  | zero => rfl

theorem Denotes.posInfinity_compare (h : Denotes u v) :
    (UnpackedFloat.infinity .positive).compare u = some .gt := by
  cases h with
  | @finite s => cases s <;> rfl
  | zero => rfl

theorem Denotes.compare_negInfinity (h : Denotes u v) :
    u.compare (.infinity .negative) = some .gt := by
  cases h with
  | @finite s => cases s <;> rfl
  | zero => rfl

theorem Denotes.negInfinity_compare (h : Denotes u v) :
    (UnpackedFloat.infinity .negative).compare u = some .lt := by
  cases h with
  | @finite s => cases s <;> rfl
  | zero => rfl

end Infinity

/-- **A number within two bounds**: it is finite, and its value lies between them. -/
def Within (low high : ℚ) (x : Float) : Prop := ∃ v, value? x = some v ∧ low ≤ v ∧ v ≤ high

/-- A number between two finite ones is finite. -/
theorem within_of_le {x y z : Float} {u w : ℚ} (hy : value? y = some u) (hz : value? z = some w)
    (hyx : y ≤ x) (hxz : x ≤ z) : Within u w x := by
  rcases value?_cases x with ⟨v, hv⟩ | hnan | ⟨s, hinfinity⟩
  · exact ⟨v, hv, (le_iff hy hv).mp hyx, (le_iff hv hz).mp hxz⟩
  · rw [le_def, hnan] at hxz
    cases hxz
  · rw [le_def, hinfinity] at hyx hxz
    cases s with
    | positive =>
      rw [(value?_eq_some_iff.mp hz).posInfinity_compare] at hxz
      cases hxz
    | negative =>
      rw [(value?_eq_some_iff.mp hy).compare_negInfinity] at hyx
      cases hyx

/-- **Bounds are carried through a faithful rounding**, if they are numbers themselves. -/
theorem Faithful.within {q : ℚ} {x y z : Float} {u w : ℚ} (h : Faithful q x)
    (hy : value? y = some u) (hz : value? z = some w) (hu : u ≤ q) (hw : q ≤ w) :
    Within u w x :=
  within_of_le hy hz ((h hy).2 hu) ((h hz).1 hw)

/-! ## What is packed -/

theorem le_posInfinity {x z : Float} {v : ℚ} (hx : x.toModel.unpack = .infinity .positive)
    (hz : value? z = some v) : z ≤ x := by
  rw [le_def, hx, (value?_eq_some_iff.mp hz).compare_posInfinity]
  rfl

theorem negInfinity_le {x z : Float} {v : ℚ} (hx : x.toModel.unpack = .infinity .negative)
    (hz : value? z = some v) : x ≤ z := by
  rw [le_def, hx, (value?_eq_some_iff.mp hz).negInfinity_compare]
  rfl

/-- A number whose exponent is too great is packed as an infinity. -/
theorem unpack_pack_overflow {s : Sign} {m : Nat} {e : Int} (hm : 0 < m) (he : 972 ≤ e) :
    (Float.Model.pack (.finite s m e hm)).unpack = .infinity s := by
  have hbiased : 2 ^ Format.binary64.exponentBits
      ≤ (e + Format.binary64.exponentBias
        + Format.binary64.mantissaBitsWithoutImplicit).toNat + 1 := by
    show 2 ^ 11 ≤ (e + (1023 : ℕ) + (52 : ℕ)).toNat + 1
    omega
  show unpack .binary64 (pack .binary64 (.finite s m e hm)) = _
  rw [pack]
  dsimp only
  rw [if_pos hbiased]
  cases s <;> rfl

/-- Parts in range are packed as the number that they denote. -/
theorem value?_signedParts {c : Nat} {t : Int} (h : Canonical c t) (s : Sign) :
    value? (.ofModel (.pack (signedParts s c t))) = some (signed s (c * 2 ^ t)) := by
  rw [value?_eq_some_iff, signedParts]
  by_cases hc : c = 0
  · subst hc
    rw [dif_pos rfl, zero_magnitude, signed_zero]
    exact denotes_pack_zero s
  · rw [dif_neg hc]
    exact denotes_pack _ h

/-- Parts with too great an exponent are packed as an infinity. -/
theorem unpack_signedParts {c : Nat} {t : Int} (hc : c ≠ 0) (ht : 972 ≤ t) (s : Sign) :
    (Float.ofModel (.pack (signedParts s c t))).toModel.unpack = .infinity s := by
  rw [signedParts, dif_neg hc]
  exact unpack_pack_overflow (Nat.pos_of_ne_zero hc) ht

/-- **The parts of a finite number**, of either zero, too. -/
theorem Denotes.exists_canonical {x : UnpackedFloat} {v : ℚ} (h : Denotes x v) :
    ∃ s c t, Canonical c t ∧ v = signed s (c * 2 ^ t) := by
  cases h with
  | @finite s m e hm h => exact ⟨s, m, e, h, rfl⟩
  | zero s => exact ⟨s, 0, -1074, canonical_zero, by rw [zero_magnitude, signed_zero]⟩

theorem magnitude_nonneg (m : Nat) (e : Int) : (0 : ℚ) ≤ m * 2 ^ e :=
  mul_nonneg (Nat.cast_nonneg m) (two_zpow_pos e).le

theorem abs_signed {q : ℚ} (hq : 0 ≤ q) (s : Sign) : |signed s q| = q := by
  cases s with
  | positive => exact abs_of_nonneg hq
  | negative => exact (abs_neg q).trans (abs_of_nonneg hq)

/-- Magnitudes that lie on one side of all others do so with a sign, too. -/
theorem signed_between {q w v : ℚ} (hq : 0 ≤ q) (hw : 0 ≤ w) (hle : q ≤ |v| → w ≤ |v|)
    (hge : |v| ≤ q → |v| ≤ w) (s : Sign) :
    (signed s q ≤ v → signed s w ≤ v) ∧ (v ≤ signed s q → v ≤ signed s w) := by
  rcases le_total 0 v with hv | hv
  · rw [abs_of_nonneg hv] at hle hge
    cases s with
    | positive => exact ⟨hle, hge⟩
    | negative =>
      change (-q ≤ v → -w ≤ v) ∧ (v ≤ -q → v ≤ -w)
      exact ⟨fun _ => by linarith, fun h => by linarith [hle (by linarith)]⟩
  · rw [abs_of_nonpos hv] at hle hge
    cases s with
    | positive =>
      change (q ≤ v → w ≤ v) ∧ (v ≤ q → v ≤ w)
      exact ⟨fun h => by linarith [hle (by linarith)], fun _ => by linarith⟩
    | negative =>
      change (-q ≤ v → -w ≤ v) ∧ (v ≤ -q → v ≤ -w)
      exact ⟨fun h => by linarith [hge (by linarith)], fun h => by linarith [hle (by linarith)]⟩

/-- **What is rounded and packed is a faithful rounding.** -/
theorem Nearby.faithful {q : ℚ} {c : Nat} {t : Int} (h : Nearby q c t) (hq : 0 ≤ q) (s : Sign) :
    Faithful (signed s q) (.ofModel (.pack (signedParts s c t))) := by
  intro z v hz
  obtain ⟨r, n, f, ⟨hn, hf, hf', -⟩, hvalue⟩ := (value?_eq_some_iff.mp hz).exists_canonical
  have habs : |v| = n * 2 ^ f := hvalue ▸ abs_signed (magnitude_nonneg n f) r
  have hle : q ≤ |v| → (c : ℚ) * 2 ^ t ≤ |v| := by
    rw [habs]
    exact h.le_of_le hn hf
  have hge : |v| ≤ q → |v| ≤ c * 2 ^ t := by
    rw [habs]
    exact h.ge_of_ge hn hf
  have hpos := magnitude_nonneg c t
  rcases le_or_gt t 971 with hhigh | hover
  · have hvalue := value?_signedParts ⟨h.lt, h.low, hhigh, h.full⟩ s
    rw [le_iff hvalue hz, le_iff hz hvalue]
    exact signed_between hq hpos hle hge s
  · -- every number is smaller than what is packed as an infinity
    have hfull : 2 ^ 52 ≤ c := h.full.resolve_right fun h0 => by omega
    have hbeyond : |v| < q := lt_of_not_ge fun hv => by
      have hlt := magnitude_lt hn hfull (show f < t by omega)
      rw [← habs] at hlt
      exact absurd (hle hv) (not_le.mpr hlt)
    have hinfinity := unpack_signedParts (by omega : c ≠ 0) hover s
    cases s with
    | positive =>
      exact ⟨fun hle => absurd (hle.trans (le_abs_self v)) (not_le.mpr hbeyond),
        fun _ => le_posInfinity hinfinity hz⟩
    | negative =>
      refine ⟨fun _ => negInfinity_le hinfinity hz, fun hle => absurd ?_ (not_le.mpr hbeyond)⟩
      change v ≤ -q at hle
      linarith [neg_le_abs v]

theorem faithful_roundWithAccuracy {m : Nat} {e : Int} {acc : Accuracy} {q : ℚ}
    (h : Tracks (.ofMantissaAndAccuracy m acc) q)
    (he : e ≤ Format.binary64.targetExponent (totalExponent m e)) (s : Sign) :
    Faithful (signed s (q * 2 ^ e)) (.ofModel (.pack (roundWithAccuracy .binary64 s m e acc))) := by
  obtain ⟨c, t, hnear, hround⟩ := exists_roundWithAccuracy h he s
  rw [hround]
  exact hnear.faithful (mul_nonneg ((Nat.cast_nonneg _).trans h.low) (two_zpow_pos e).le) s

end Binary64

end Arithmancy
