import Mathlib
import Arithmancy.Number.Figures
import Arithmancy.Proofs.Number.Arithmetic

/-!
# Rounding halves upward

The nearest integer is found by adding one half and rounding down. Of numbers that are not rounded
themselves this is right, but the sum is a floating-point number, and there are not always enough
bits for the half. From `2 ^ 52` on there are none, and the sum is itself rounded to an integer: an
odd one lies in the middle between two numbers, and the even one above it is chosen
(`roundHalfUp_of_value`). So odd integers do not stay what they are.

Decimal places are kept by scaling a number up before and down afterwards. The sum and the quotient
stay finite, but the number that was scaled up need not. So rounding makes an infinity of a finite
number, if it is great enough (`roundTo_cases`).
-/

namespace Arithmancy

namespace Binary64

open Float.Model (UnpackedFloat)
open Figures (roundHalfUp roundTo)

variable {x y : Float} {v w : ℚ}

/-! ## Integers -/

/-- What is rounded to a number next to it is that number if it is one itself. -/
theorem Faithful.exact (h : Faithful v x) (hy : value? y = some v) : value? x = some v := by
  obtain ⟨u, hu, hlow, hhigh⟩ := h.within hy hy le_rfl le_rfl
  rwa [le_antisymm hhigh hlow] at hu

/-- There is a bit left for the half. -/
theorem add_half_of_lt {n : ℕ} (h : value? x = some (n : ℚ)) (hn : n < 2 ^ 52) :
    value? (x + 0.5) = some (n + 1 / 2 : ℚ) := by
  have hexact := value?_dyadic (k := 2 * n + 1) (by omega) (e := -1) (by decide) (by decide)
  have hvalue : ((2 * n + 1 : ℕ) : ℚ) * 2 ^ (-1 : ℤ) = n + 1 / 2 := by
    push_cast
    rw [zpow_neg_one]
    ring
  rw [hvalue] at hexact
  exact (faithful_add h value?_half).exact hexact

/-- The scale of a number that has 53 bits before the point, or one more. -/
theorem RoundedAt.scale_of_integer {q : ℚ} {t : ℤ} {c : ℕ} (h : RoundedAt q t c)
    (hlow : 2 ^ 52 ≤ q) (hhigh : q < 2 ^ 54) : t = 0 ∧ q < 2 ^ 53 ∨ t = 1 ∧ 2 ^ 53 ≤ q := by
  have hzero : 0 ≤ t := by
    by_contra hneg
    have hscale : (2 : ℚ) ^ t ≤ 2 ^ (-1 : ℤ) := zpow_le_zpow_right₀ one_le_two (by omega)
    rw [zpow_neg_one] at hscale
    linarith [h.lt]
  have hfull := h.full.resolve_right (by omega)
  have hone : t ≤ 1 := by
    by_contra hbig
    have hscale : (2 : ℚ) ^ (2 : ℤ) ≤ 2 ^ t := zpow_le_zpow_right₀ one_le_two (by omega)
    norm_num at hscale
    linarith
  have hlt := h.lt
  obtain rfl | rfl : t = 0 ∨ t = 1 := by omega
  · rw [zpow_zero, mul_one] at hlt
    exact .inl ⟨rfl, hlt⟩
  · rw [zpow_one] at hfull
    exact .inr ⟨rfl, by linarith⟩

/-- Only one integer is nearer than one half. -/
theorem NearestEven.eq_of_near {q : ℚ} {c n : ℕ} (h : NearestEven q c) (hn : |q - n| < 1 / 2) :
    c = n := by
  obtain ⟨hle, hge⟩ := abs_le.mp h.near
  obtain ⟨hlt, hgt⟩ := abs_lt.mp hn
  have hcn : c < n + 1 := by exact_mod_cast (by linarith : (c : ℚ) < n + 1)
  have hnc : n < c + 1 := by exact_mod_cast (by linarith : (n : ℚ) < c + 1)
  omega

/-- Of the two integers around the middle, the even one is chosen. -/
theorem NearestEven.of_half {n c : ℕ} (h : NearestEven (n + 1 / 2) c) : c = n + n % 2 := by
  obtain ⟨hnear, heven⟩ := h
  obtain ⟨hle, hge⟩ := abs_le.mp hnear
  have hcn : c ≤ n + 1 := by exact_mod_cast (by linarith : (c : ℚ) ≤ n + 1)
  have hnc : n ≤ c := by exact_mod_cast (by linarith : (n : ℚ) ≤ c)
  have htie : c % 2 = 0 := heven <| by
    obtain rfl | rfl : c = n ∨ c = n + 1 := by omega
    · rw [add_sub_cancel_left, abs_of_pos one_half_pos]
    · push_cast
      rw [abs_sub_comm, abs_of_pos] <;> linarith
  omega

/-- **There is no bit left for the half**, and the sum is an even integer. -/
theorem add_half_of_ge {n : ℕ} (h : value? x = some (n : ℚ)) (hlow : 2 ^ 52 ≤ n)
    (hhigh : n ≤ 2 ^ 53) : value? (x + 0.5) = some ((n + n % 2 : ℕ) : ℚ) := by
  obtain ⟨s, t, c, hsigned, hrounded, hpacked⟩ := (rounds_add h value?_half).nearest
  have hlow' : (2 : ℚ) ^ 52 ≤ n := by exact_mod_cast hlow
  have hhigh' : (n : ℚ) ≤ 2 ^ 53 := by exact_mod_cast hhigh
  have hpos : (0 : ℚ) < n + 1 / 2 := by positivity
  rw [abs_of_pos hpos] at hsigned hrounded
  have hunits : (c : ℚ) * 2 ^ t = (n + n % 2 : ℕ) := by
    have hnearest := hrounded.nearest
    rcases hrounded.scale_of_integer (by linarith) (by linarith) with ⟨rfl, -⟩ | ⟨rfl, hbig⟩
    · rw [zpow_zero, div_one] at hnearest
      rw [zpow_zero, mul_one, hnearest.of_half]
    · -- only `2 ^ 53` itself is that great
      have hn : n = 2 ^ 53 := by
        have hlt : 2 ^ 53 < n + 1 := by exact_mod_cast (by linarith : (2 ^ 53 : ℚ) < n + 1)
        omega
      subst hn
      rw [zpow_one] at hnearest ⊢
      rw [hnearest.eq_of_near (n := 2 ^ 52) (by norm_num [abs_of_pos])]
      norm_num
  have hs : s = .positive := by
    cases s with
    | positive => rfl
    | negative =>
      change -(n + 1 / 2 : ℚ) = n + 1 / 2 at hsigned
      linarith
  have hvalue := hpacked.value <| by
    rw [hunits]
    have hle : ((n + n % 2 : ℕ) : ℚ) ≤ 2 ^ 54 := by exact_mod_cast (by omega : n + n % 2 ≤ 2 ^ 54)
    exact hle.trans_lt (pow_lt_pow_right₀ one_lt_two (by decide))
  rw [hunits, hs] at hvalue
  exact hvalue

/-- **Rounding an integer to the nearest one** leaves it as it is below `2 ^ 52`. From there on up
to `2 ^ 53`, it makes an odd one even. -/
theorem roundHalfUp_of_value {n : ℕ} (h : value? x = some (n : ℚ)) (hn : n ≤ 2 ^ 53) :
    value? (roundHalfUp x) = some ((if n < 2 ^ 52 then n else n + n % 2 : ℕ) : ℚ) := by
  split
  · next hlt =>
    have hfloor := value?_floor (add_half_of_lt h hlt)
    have hbelow : ⌊(n + 1 / 2 : ℚ)⌋ = n := by
      rw [Int.floor_eq_iff]
      push_cast
      constructor <;> linarith
    rw [hbelow] at hfloor
    exact hfloor
  · next hge =>
    have hfloor := value?_floor (add_half_of_ge h (not_lt.mp hge) hn)
    rw [Int.floor_natCast] at hfloor
    exact hfloor

/-! ## Decimal places -/

/-- The greatest number. -/
theorem abs_le_of_value (h : value? x = some v) : |v| ≤ (2 ^ 53 - 1) * 2 ^ (971 : ℤ) := by
  obtain ⟨s, c, t, hcanonical, rfl⟩ := (value?_eq_some_iff.mp h).exists_canonical
  rw [abs_signed (magnitude_nonneg c t)]
  have hc : (c : ℚ) ≤ 2 ^ 53 - 1 := by
    have hc' : (c : ℚ) + 1 ≤ 2 ^ 53 := by exact_mod_cast hcanonical.lt
    linarith
  exact mul_le_mul hc (zpow_le_zpow_right₀ one_le_two hcanonical.high) (two_zpow_pos t).le
    (by norm_num)

/-- **Adding one half** never leaves the finite numbers. -/
theorem add_half_isFinite (h : value? x = some v) : (x + 0.5).isFinite = true := by
  rw [(rounds_add h value?_half).isFinite_iff, overflow_eq]
  have hle := abs_le_of_value h
  have hunit : (1 : ℚ) < 2 ^ (971 : ℤ) := one_lt_zpow₀ one_lt_two (by decide)
  have hsum := abs_add_le v (1 / 2)
  rw [abs_of_pos (one_half_pos (α := ℚ))] at hsum
  generalize (2 : ℚ) ^ (971 : ℤ) = unit at *
  linarith

theorem exists_roundHalfUp (h : value? x = some v) : ∃ z, value? (roundHalfUp x) = some z := by
  obtain ⟨u, hu⟩ := isFinite_iff.mp (add_half_isFinite h)
  exact ⟨_, value?_floor hu⟩

/-- **A division by one or more** never leaves the finite numbers. -/
theorem exists_div (hx : value? x = some v) (hy : value? y = some w) (hw : 1 ≤ w) :
    ∃ u, value? (x / y) = some u := by
  have hpos : 0 < w := one_pos.trans_le hw
  rw [← isFinite_iff, (rounds_div hx hy hpos.ne').isFinite_iff, abs_div, abs_of_pos hpos]
  refine lt_of_le_of_lt (div_le_self (abs_nonneg v) hw) ?_
  exact (rounds_of_value hx).isFinite_iff.mp (isFinite_iff.mpr ⟨v, hx⟩)

section Infinity

variable {s : UnpackedFloat.Sign}

theorem unpack_pack_infinity (s : UnpackedFloat.Sign) :
    (Float.Model.pack (.infinity s)).unpack = .infinity s := by
  cases s <;> rfl

theorem infinity_add (hx : x.toModel.unpack = .infinity s) (hy : value? y = some w) :
    (x + y).toModel.unpack = .infinity s := by
  show (Float.Model.pack (.add .binary64 x.toModel.unpack y.toModel.unpack)).unpack = _
  rw [hx]
  have hdenotes := value?_eq_some_iff.mp hy
  generalize y.toModel.unpack = u at hdenotes
  cases hdenotes <;> exact unpack_pack_infinity s

theorem floor_infinity (hx : x.toModel.unpack = .infinity s) : floor x = x := by
  rw [floor, decode?, hx]

theorem exists_infinity_div (hx : x.toModel.unpack = .infinity s) (hy : value? y = some w) :
    ∃ t, (x / y).toModel.unpack = .infinity t := by
  show ∃ t, (Float.Model.pack (.div .binary64 x.toModel.unpack y.toModel.unpack)).unpack = _
  rw [hx]
  have hdenotes := value?_eq_some_iff.mp hy
  generalize y.toModel.unpack = u at hdenotes
  cases hdenotes <;> exact ⟨_, unpack_pack_infinity _⟩

end Infinity

/-- **Rounding to decimal places** gives a finite number exactly if the number that is scaled up is
below the overflow. Otherwise it gives an infinity. -/
theorem roundTo_cases {places : Int} (hx : value? x = some v)
    (hscale : value? (Scalar.powInt (10 : Float) places) = some w) (hw : 1 ≤ w) :
    |v| * w < overflow ∧ (∃ u, value? (roundTo x places) = some u)
      ∨ overflow ≤ |v| * w ∧ ∃ s, (roundTo x places).toModel.unpack = .infinity s := by
  have hscaled := rounds_mul hx hscale
  have habs : |v * w| = |v| * w := by rw [abs_mul, abs_of_pos (one_pos.trans_le hw)]
  rw [← habs]
  rcases lt_or_ge |v * w| overflow with hlt | hge
  · obtain ⟨u, hu⟩ := isFinite_iff.mp (hscaled.isFinite_iff.mpr hlt)
    obtain ⟨z, hz⟩ := exists_roundHalfUp hu
    exact .inl ⟨hlt, exists_div hz hscale hw⟩
  · obtain ⟨s, hs⟩ := hscaled.exists_infinity hge
    have hraised := infinity_add hs value?_half
    have hrounded : (roundHalfUp (x * Scalar.powInt 10 places)).toModel.unpack = .infinity s := by
      rw [← hraised]
      exact congrArg (fun y : Float => y.toModel.unpack) (floor_infinity hraised)
    exact .inr ⟨hge, exists_infinity_div hrounded hscale⟩

end Binary64

end Arithmancy
