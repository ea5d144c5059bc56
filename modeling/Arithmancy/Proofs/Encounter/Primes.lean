import Mathlib
import Arithmancy.Combo
import Arithmancy.Monster.Basic
import Arithmancy.Proofs.Number.NearestPrime
import Arithmancy.Proofs.Number.Numeral
import Arithmancy.Proofs.Number.RoundHalfUp

/-!
# What the game takes for a prime

A boss is hurt by primes only, a combo is earned by them, and targets are moved toward them. All
three ask trial division, and of integers up to `2 ^ 53`, which are numbers of the game as they
stand, it tells the primes from the others. The combo and the bias go no further than that.

The boss asks about the result rounded to the nearest integer. Rounding an integer should change
nothing, and up to `2 ^ 52` it does not. Beyond, it makes odd integers even, and so the boss is
immune to every prime there (`BossAbility.primeOnly_allows_iff`), while the combo still sees it
(`Figures.isPrime_agrees`).
-/

namespace Arithmancy

open Binary64

/-! ## The combo and the boss -/

/-- **The combo of primes** is earned by what is taken for a prime. -/
theorem ComboReport.primeTime_mem_iff {a : Attempt Float} :
    .primeTime ∈ (ofAttempt a).combos ↔ Figures.isPrime a.result = true := by
  show Combo.primeTime ∈ (Labelled.all : List Combo).filter (Combo.occursIn a) ↔ _
  rw [List.mem_filter, and_iff_right (by decide), Combo.occursIn]

/-- **The boss that is hurt by primes only** is hurt by those below `2 ^ 52`, of all integers up to
`2 ^ 53`. -/
theorem BossAbility.primeOnly_allows_iff {x : Float} {n : ℕ} (h : value? x = some (n : ℚ))
    (hn : n ≤ 2 ^ 53) : primeOnly.allows x = true ↔ n.Prime ∧ n < 2 ^ 52 := by
  have hvalue := roundHalfUp_of_value h hn
  show Figures.isPrime (Figures.roundHalfUp x) = true ↔ _
  split at hvalue
  · next hlt =>
    rw [Figures.isPrime_of_value hvalue (hn.trans (by decide)), Prime.test_iff,
      and_iff_left hlt]
  · next hge =>
    have hlimit : n + n % 2 ≤ maxCount64 := by
      have : 2 ^ 53 + 1 ≤ maxCount64 := by decide
      omega
    rw [Figures.isPrime_of_value hvalue hlimit, Prime.test_iff]
    -- an even number that is not two is no prime
    refine iff_of_false (fun hprime => ?_) fun h => hge h.2
    have heven : 2 ∣ n + n % 2 := by omega
    have htwo := (Nat.prime_dvd_prime_iff_eq Nat.prime_two hprime).mp heven
    omega

/-! ## The target -/

namespace Monster

/-- **A target moves to the nearest prime**, if that is at most five away. -/
theorem nudgeToPrime_of_isNearest {hp p : ℕ} (hhp : hp ≤ maxCount32)
    (h : Prime.IsNearest maxCount32 hp p) :
    nudgeToPrime hp = if Nat.dist hp p ≤ 5 then p else hp := by
  have hnearest : Figures.nearestPrime hp = p :=
    (Prime.isNearest_of_fuel hhp (by decide) (Nat.le_refl _)).unique h
  rw [nudgeToPrime, hnearest]
  refine if_congr ?_ rfl rfl
  rw [Bool.and_eq_true, decide_eq_true_iff, decide_eq_true_iff, Nat.dist]
  omega

theorem prime_of_mem_bigPrimes : ∀ p ∈ bigPrimes, p.Prime := by
  have htest : ∀ p ∈ bigPrimes, Prime.test p = true := by decide
  exact fun p hp => (Prime.test_iff p).mp (htest p hp)

end Monster

/-! ## All of them -/

/-- **What is taken for a prime is prime**, of all integers up to `2 ^ 53`. Each of them is a number
of the game, and whatever number has its value is taken for a prime, and makes the combo, exactly if
it is one. The search behind that ends by itself at some candidate, and no square of a candidate
before it passes 64 bits. A target moves to the nearest prime if that is at most five away, and what
it may be replaced by is prime. The boss, however, is immune to the primes from `2 ^ 52` on. -/
theorem Figures.isPrime_agrees {n : ℕ} (hn : n ≤ 2 ^ 53) :
    value? (Float.ofNat n) = some (n : ℚ)
      ∧ (∀ x, value? x = some (n : ℚ) →
        (isPrime x = true ↔ n.Prime)
          ∧ (∀ a : Attempt Float, a.result = x →
            (.primeTime ∈ (ComboReport.ofAttempt a).combos ↔ n.Prime))
          ∧ (BossAbility.primeOnly.allows x = true ↔ n.Prime ∧ n < 2 ^ 52))
      ∧ (∃ last, Prime.EndsAt n last
        ∧ (∀ i, Prime.Tried n i → i ≤ last ∧ i * i ≤ maxCount64)
        ∧ ∀ fuel, n ≤ fuel → Prime.noOddDivisorFrom n fuel 3 = decide (n < last * last))
      ∧ (n ≤ maxCount32 → ∃ p, Prime.IsNearest maxCount32 n p
        ∧ Monster.nudgeToPrime n = if Nat.dist n p ≤ 5 then p else n)
      ∧ ∀ p ∈ Monster.bigPrimes, p.Prime := by
  refine ⟨(ofNat_exact hn).1, fun x hx => ?_, ?_, fun h32 => ?_, Monster.prime_of_mem_bigPrimes⟩
  · have hprime : isPrime x = true ↔ n.Prime := by
      rw [isPrime_of_value hx (hn.trans (by decide)), Prime.test_iff]
    refine ⟨hprime, fun a ha => ?_, BossAbility.primeOnly_allows_iff hx hn⟩
    rw [ComboReport.primeTime_mem_iff, ha, hprime]
  · obtain ⟨last, hlast, hfuel⟩ := Prime.exists_last n
    exact ⟨last, hlast, fun i hi => ⟨hi.le_last hlast, hi.mul_self_le hn⟩, hfuel⟩
  · have hnearest : Prime.IsNearest maxCount32 n (nearestPrime n) :=
      Prime.isNearest_of_fuel h32 (by decide) (Nat.le_refl _)
    exact ⟨_, hnearest, Monster.nudgeToPrime_of_isNearest h32 hnearest⟩

/-- Ninety-seven is a prime for all of them, and a target stays there. -/
theorem Figures.isPrime_agrees_ninetySeven :
    97 ≤ 2 ^ 53 ∧ isPrime (97 : Float) = true ∧ BossAbility.primeOnly.allows (97 : Float) = true
      ∧ Monster.nudgeToPrime 97 = 97 := by
  have hn : 97 ≤ 2 ^ 53 := by decide
  have hprime : Nat.Prime 97 := by norm_num
  obtain ⟨hvalue, hnumbers, -, htarget, -⟩ := isPrime_agrees hn
  obtain ⟨hall, -, hboss⟩ := hnumbers _ hvalue
  obtain ⟨p, hp, hnudge⟩ := htarget (by decide)
  obtain rfl : 97 = p := by
    have hnear := hp.nearest 97 (by decide) hprime
    rw [Nat.dist_self] at hnear
    exact Nat.eq_of_dist_eq_zero (Nat.le_zero.mp hnear)
  exact ⟨hn, hall.mpr hprime, hboss.mpr ⟨hprime, by decide⟩, by rw [hnudge, ite_self]⟩

/-- The least prime above `2 ^ 52`, by the factors of the number before it. -/
theorem prime_4503599627370517 : Nat.Prime 4503599627370517 := by
  refine lucas_primality _ 2 (by reduce_mod_char) fun q hq hdvd => ?_
  have hfactors : (4503599627370517 - 1 : ℕ) = 2 ^ 2 * 3 ^ 4 * 23 * 612229 * 987127 := by norm_num
  have h23 : Nat.Prime 23 := by norm_num
  have h612229 : Nat.Prime 612229 := by norm_num
  have h987127 : Nat.Prime 987127 := by norm_num
  have hcases : q = 2 ∨ q = 3 ∨ q = 23 ∨ q = 612229 ∨ q = 987127 := by
    simpa only [hfactors, hq.dvd_mul, hq.prime.dvd_pow_iff_dvd two_ne_zero,
      hq.prime.dvd_pow_iff_dvd four_ne_zero, Nat.prime_dvd_prime_iff_eq hq, Nat.prime_two,
      Nat.prime_three, h23, h612229, h987127, or_assoc] using hdvd
  rcases hcases with rfl | rfl | rfl | rfl | rfl <;> reduce_mod_char <;> decide +kernel

/-- **A boss that is hurt by primes only is immune to a prime**, though it is an integer that is a
number of the game and that is taken for a prime elsewhere. -/
theorem BossAbility.immune_to_prime :
    4503599627370517 ≤ 2 ^ 53 ∧ Nat.Prime 4503599627370517
      ∧ value? (4503599627370517 : Float) = some 4503599627370517
      ∧ Figures.isPrime (4503599627370517 : Float) = true
      ∧ primeOnly.allows (4503599627370517 : Float) = false := by
  have hvalue : value? (4503599627370517 : Float) = some (4503599627370517 : ℕ) :=
    value?_ofNat (by decide)
  refine ⟨by decide, prime_4503599627370517, by exact_mod_cast hvalue, ?_, by decide +kernel⟩
  rw [Figures.isPrime_of_value hvalue (by decide), Prime.test_iff]
  exact prime_4503599627370517

end Arithmancy
