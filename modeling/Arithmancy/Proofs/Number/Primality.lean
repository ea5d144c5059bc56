import Arithmancy.Number.Figures
import Arithmancy.Proofs.Number.Whole

/-!
# Trial division finds the primes

Trial division looks for odd divisors from three on and stops where their squares pass the number.
Two things are left out: the even candidates, and the candidates above the root. An even one
divides even numbers only, and these are decided before. Of the divisors of a number that is not
prime the least is at most its root, so it is among the candidates, or two.

The number of candidates is bounded beforehand. What is found does not depend on the bound, as
long as the candidates that it leaves room for reach the root (`noOddDivisorFrom_iff`): the search
is over by then (`exists_last`). The main statements are `Prime.test_iff` and, for the numbers of
the game, `Figures.isPrime_of_value`.
-/

namespace Arithmancy

namespace Prime

/-- Once its square passes the number, a candidate is out of question, and so are all behind it. -/
theorem lt_mul_self_of_le {n i d : Nat} (hpassed : n < i * i) (hd : i ≤ d) : n < d * d :=
  Nat.lt_of_lt_of_le hpassed (Nat.mul_le_mul hd hd)

/-- **The search over the odd candidates** from `i` on finds whether one of them divides the number
and has a square that does not pass it. -/
theorem noOddDivisorFrom_iff {n fuel i : Nat} (hodd : i % 2 = 1)
    (hfuel : n < (i + 2 * fuel) * (i + 2 * fuel)) :
    noOddDivisorFrom n fuel i = true ↔ ∀ d, i ≤ d → d % 2 = 1 → d * d ≤ n → ¬d ∣ n := by
  induction fuel generalizing i with
  | zero =>
    refine iff_of_true rfl fun d hd _ hsquare => ?_
    exact absurd (lt_mul_self_of_le hfuel hd) (Nat.not_lt.mpr hsquare)
  | succ fuel ih =>
    rw [noOddDivisorFrom]
    split
    · next hpassed =>
      refine iff_of_true rfl fun d hd _ hsquare => ?_
      exact absurd (lt_mul_self_of_le hpassed hd) (Nat.not_lt.mpr hsquare)
    · next hsquare =>
      split
      · next hdvd =>
        refine iff_of_false Bool.false_ne_true fun h => ?_
        exact h i (Nat.le_refl i) hodd (Nat.le_of_not_lt hsquare) (Nat.dvd_of_mod_eq_zero hdvd)
      · next hdvd =>
        have hreach : i + 2 + 2 * fuel = i + 2 * (fuel + 1) := by omega
        rw [ih (by omega) (hreach ▸ hfuel)]
        -- between `i` and `i + 2` there is an even candidate only
        refine ⟨fun h d hd hdodd hsquare => ?_, fun h d hd => h d (by omega)⟩
        rcases Nat.eq_or_lt_of_le hd with rfl | hlt
        · exact fun hd => hdvd (Nat.mod_eq_zero_of_dvd hd)
        · exact h d (by omega) hdodd hsquare

/-- An odd number from three on is prime if no odd number up to its root divides it. -/
theorem prime_iff_of_odd {n : Nat} (hodd : n % 2 = 1) (hn : 2 ≤ n) :
    n.Prime ↔ ∀ d, 3 ≤ d → d % 2 = 1 → d * d ≤ n → ¬d ∣ n := by
  constructor
  · intro hprime d hd _ hsquare hdvd
    rcases hprime.eq_one_or_self_of_dvd d hdvd with rfl | rfl
    · omega
    · exact absurd hsquare (Nat.not_le.mpr (Nat.lt_mul_self_iff.mpr hn))
  · intro h
    by_contra hprime
    have hleast := Nat.minFac_prime (show n ≠ 1 by omega)
    have hsquare := Nat.minFac_sq_le_self (by omega) hprime
    rw [Nat.pow_two] at hsquare
    have hleastodd : n.minFac % 2 = 1 := by
      refine Nat.mod_two_ne_zero.mp fun heven => ?_
      have := Nat.mod_eq_zero_of_dvd ((Nat.dvd_of_mod_eq_zero heven).trans (Nat.minFac_dvd n))
      omega
    have htwo := hleast.two_le
    exact h n.minFac (by omega) hleastodd hsquare (Nat.minFac_dvd n)

/-- **Trial division tells the primes from all other numbers.** -/
theorem test_iff (n : Nat) : test n = true ↔ n.Prime := by
  rw [test]
  split
  · next hlt => exact iff_of_false Bool.false_ne_true fun h => absurd h.two_le (Nat.not_le.mpr hlt)
  · next hn =>
    split
    · next htwo => exact iff_of_true rfl (htwo ▸ Nat.prime_two)
    · next htwo =>
      split
      · next heven =>
        refine iff_of_false Bool.false_ne_true fun h => htwo ?_
        exact ((Nat.prime_dvd_prime_iff_eq Nat.prime_two h).mp (Nat.dvd_of_mod_eq_zero heven)).symm
      · next heven =>
        have hodd := Nat.mod_two_ne_zero.mp heven
        have hreach : n < (3 + 2 * n) * (3 + 2 * n) :=
          Nat.lt_of_lt_of_le (by omega) (Nat.le_mul_self _)
        rw [noOddDivisorFrom_iff (by decide) hreach, prime_iff_of_odd hodd (Nat.le_of_not_lt hn)]

/-! ## The candidates that are tried -/

/-- **The candidates whose squares are compared with the number**: three, and after one that neither
passes the root nor divides the number the next odd one. -/
inductive Tried (n : Nat) : Nat → Prop where
  /-- Three is the first. -/
  | first : Tried n 3
  /-- Two more is the next. -/
  | next {i : Nat} (h : Tried n i) (hsquare : i * i ≤ n) (hdvd : ¬i ∣ n) : Tried n (i + 2)

/-- **The search is over** at a candidate that passes the root or divides the number. -/
structure EndsAt (n last : Nat) : Prop where
  /-- The candidate is tried. -/
  tried : Tried n last
  /-- No other one is tried after it. -/
  ends : n < last * last ∨ last ∣ n

namespace Tried

variable {n i : Nat}

theorem odd (h : Tried n i) : i % 2 = 1 := by
  induction h with
  | first => rfl
  | next _ _ _ ih => omega

theorem three_le (h : Tried n i) : 3 ≤ i := by
  cases h with
  | first => exact Nat.le_refl 3
  | next h _ _ => have := h.odd; omega

/-- **Squares of candidates** of a number up to `2 ^ 53` can be counted in 64 bits. -/
theorem mul_self_le (h : Tried n i) (hn : n ≤ 2 ^ 53) : i * i ≤ maxCount64 := by
  cases h with
  | first => decide
  | @next i _ hsquare _ =>
    have hroot : i ≤ 2 ^ 27 := by
      by_contra hbig
      have := Nat.mul_self_le_mul_self (Nat.le_of_not_le hbig)
      omega
    calc (i + 2) * (i + 2) ≤ (2 ^ 27 + 2) * (2 ^ 27 + 2) := Nat.mul_self_le_mul_self (by omega)
      _ ≤ maxCount64 := by decide

/-- No candidate is tried after the search is over. -/
theorem le_last {last : Nat} (h : Tried n i) (hlast : EndsAt n last) : i ≤ last := by
  induction h with
  | first => exact hlast.tried.three_le
  | @next i h hsquare hdvd ih =>
    have hne : i ≠ last := by
      rintro rfl
      exact hlast.ends.elim (fun hpassed => absurd hsquare (Nat.not_le.mpr hpassed)) hdvd
    have := h.odd
    have := hlast.tried.odd
    omega

end Tried

/-- **The search is over at some candidate**, as long as the number of candidates left reaches the
root, and finds whether that one passes the root. -/
theorem exists_endsAt {n fuel i : Nat} (h : Tried n i)
    (hfuel : n < (i + 2 * fuel) * (i + 2 * fuel)) :
    ∃ last, EndsAt n last ∧ noOddDivisorFrom n fuel i = decide (n < last * last) := by
  induction fuel generalizing i with
  | zero => exact ⟨i, ⟨h, .inl hfuel⟩, (decide_eq_true hfuel).symm⟩
  | succ fuel ih =>
    rw [noOddDivisorFrom]
    split
    · next hpassed => exact ⟨i, ⟨h, .inl hpassed⟩, (decide_eq_true hpassed).symm⟩
    · next hsquare =>
      split
      · next hdvd =>
        exact ⟨i, ⟨h, .inr (Nat.dvd_of_mod_eq_zero hdvd)⟩, (decide_eq_false hsquare).symm⟩
      · next hdvd =>
        have hreach : i + 2 + 2 * fuel = i + 2 * (fuel + 1) := by omega
        refine ih (h.next (Nat.le_of_not_lt hsquare) fun hd => hdvd ?_) (hreach ▸ hfuel)
        exact Nat.mod_eq_zero_of_dvd hd

/-- **The search ends by itself**: there is one candidate where it is over, and any bound on the
number of candidates that is not below the number lets it reach that one. -/
theorem exists_last (n : Nat) :
    ∃ last, EndsAt n last
      ∧ ∀ fuel, n ≤ fuel → noOddDivisorFrom n fuel 3 = decide (n < last * last) := by
  have hends {fuel : Nat} (hfuel : n ≤ fuel) :
      ∃ last, EndsAt n last ∧ noOddDivisorFrom n fuel 3 = decide (n < last * last) :=
    exists_endsAt .first (Nat.lt_of_lt_of_le (by omega) (Nat.le_mul_self _))
  obtain ⟨last, hlast, -⟩ := hends (Nat.le_refl n)
  refine ⟨last, hlast, fun fuel hfuel => ?_⟩
  obtain ⟨last', hlast', heq⟩ := hends hfuel
  have hsame : last' = last :=
    Nat.le_antisymm (hlast'.tried.le_last hlast) (hlast.tried.le_last hlast')
  rw [heq, hsame]

end Prime

namespace Figures

open Binary64

/-- **A number of the game is taken for a prime as trial division takes its value.** -/
theorem isPrime_of_value {x : Float} {n : Nat} (h : value? x = some (n : ℚ))
    (hn : n ≤ maxCount64) : isPrime x = Prime.test n := by
  have hinteger : Scalar.isInteger x = true := isInteger_iff.mpr ⟨n, by exact_mod_cast h⟩
  have htwo : value? (2 : Float) = some ((2 : ℕ) : ℚ) := value?_ofNat (by decide)
  have hless : (decide (x < 2)) = decide (n < 2) :=
    decide_eq_decide.mpr ((lt_iff h htwo).trans Nat.cast_lt)
  show (!decide (x < 2) && Scalar.isInteger x && Prime.test (Scalar.toNat maxCount64 x)) = _
  rw [hless, hinteger, toNat_of_value h hn, Bool.and_true, Prime.test]
  by_cases hsmall : n < 2
  · rw [decide_eq_true hsmall, if_pos hsmall]
    rfl
  · rw [decide_eq_false hsmall, if_neg hsmall]
    rfl

end Figures

end Arithmancy
