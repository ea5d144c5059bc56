import Mathlib.Data.Nat.Dist
import Arithmancy.Proofs.Number.Primality

/-!
# The nearest prime

The search for the prime nearest to a number tries one distance after the other, at each of them
first the candidate below and then the one above. Below, it ends at two. Above, it ends at the
limit of a counter, and from there on it tries that limit again and again, at distances that are
not its own. What keeps this from mattering is the invariant of the search: nothing that is nearer
than the distance tried is prime (`Clear`). The limit is nearer once it has been passed, so it is
not prime, whatever it is.

There is always a prime in reach, namely two, and so the search ends by itself
(`isNearest_searchFrom`): the number of distances that it may try is bounded beforehand, but any
larger bound gives the same answer. The main statement is `Figures.nearestPrime_isNearest`.
-/

namespace Arithmancy

namespace Prime

variable {limit n p q : Nat}

/-- **The prime nearest to `n`** among the numbers up to `limit`, the lower of two equally near. -/
structure IsNearest (limit n p : Nat) : Prop where
  /-- It does not pass the limit. -/
  le : p ≤ limit
  /-- It is prime. -/
  prime : p.Prime
  /-- No other prime is nearer. -/
  nearest : ∀ q ≤ limit, q.Prime → Nat.dist n p ≤ Nat.dist n q
  /-- No lower one is as near. -/
  lower : ∀ q ≤ limit, q.Prime → Nat.dist n q = Nat.dist n p → p ≤ q

theorem IsNearest.unique (hp : IsNearest limit n p) (hq : IsNearest limit n q) : p = q := by
  have hdist : Nat.dist n p = Nat.dist n q :=
    Nat.le_antisymm (hp.nearest q hq.le hq.prime) (hq.nearest p hp.le hp.prime)
  exact Nat.le_antisymm (hp.lower q hq.le hq.prime hdist.symm) (hq.lower p hp.le hp.prime hdist)

/-- **The invariant of the search**: there is no prime nearer than a distance. -/
def Clear (limit n distance : Nat) : Prop :=
  ∀ q ≤ limit, q.Prime → distance ≤ Nat.dist n q

/-- What lies at a distance lies below or above. -/
theorem dist_eq_iff {distance : Nat} :
    Nat.dist n q = distance ↔ (distance ≤ n ∧ q = n - distance) ∨ q = n + distance := by
  unfold Nat.dist
  omega

section Step

variable {distance : Nat}

/-- A prime at the distance reached is the nearest, if it lies below. -/
theorem Clear.isNearest_below (h : Clear limit n distance) (hn : n ≤ limit)
    (hle : distance ≤ n) (hprime : (n - distance).Prime) :
    IsNearest limit n (n - distance) := by
  have hdist : Nat.dist n (n - distance) = distance := dist_eq_iff.mpr (.inl ⟨hle, rfl⟩)
  refine ⟨by omega, hprime, fun q hq hqprime => hdist.symm ▸ h q hq hqprime, fun q _ _ hq => ?_⟩
  rcases dist_eq_iff.mp (hq.trans hdist) with ⟨-, rfl⟩ | rfl <;> omega

/-- A prime at the distance reached is the nearest if it lies above and none lies below. The
candidate at the limit is no prime any more once the limit is passed. -/
theorem Clear.isNearest_above (h : Clear limit n distance) (hn : n ≤ limit)
    (hbelow : ¬(distance ≤ n ∧ (n - distance).Prime))
    (hprime : (min (n + distance) limit).Prime) :
    IsNearest limit n (min (n + distance) limit) := by
  have hreached : n + distance ≤ limit := by
    by_contra hpassed
    have hlimit : min (n + distance) limit = limit := by omega
    have hfar := h limit (Nat.le_refl limit) (hlimit ▸ hprime)
    unfold Nat.dist at hfar
    omega
  rw [Nat.min_eq_left hreached] at hprime ⊢
  have hdist : Nat.dist n (n + distance) = distance := dist_eq_iff.mpr (.inr rfl)
  refine ⟨hreached, hprime, fun q hq hqprime => hdist.symm ▸ h q hq hqprime,
    fun q _ hqprime hq => ?_⟩
  rcases dist_eq_iff.mp (hq.trans hdist) with ⟨hle, rfl⟩ | rfl
  · exact absurd ⟨hle, hqprime⟩ hbelow
  · exact Nat.le_refl _

/-- Where neither candidate is prime, there is no prime at the distance either. -/
theorem Clear.succ (h : Clear limit n distance) (hbelow : ¬(distance ≤ n ∧ (n - distance).Prime))
    (habove : ¬(min (n + distance) limit).Prime) : Clear limit n (distance + 1) := by
  intro q hq hqprime
  refine Nat.lt_of_le_of_ne (h q hq hqprime) fun heq => ?_
  rcases dist_eq_iff.mp heq.symm with ⟨hle, rfl⟩ | rfl
  · exact hbelow ⟨hle, hqprime⟩
  · exact habove ((Nat.min_eq_left hq).symm ▸ hqprime)

end Step

/-- The test of the candidate below asks for what is prime. -/
theorem below_iff {distance : Nat} :
    (distance ≤ n && 2 ≤ n - distance && test (n - distance)) = true
      ↔ distance ≤ n ∧ (n - distance).Prime := by
  rw [Bool.and_eq_true, Bool.and_eq_true, decide_eq_true_eq, decide_eq_true_eq, test_iff, and_assoc]
  exact and_congr_right fun _ => and_iff_right_of_imp Nat.Prime.two_le

/-- **The search finds the nearest prime**, if there is one at a distance that it may still
try. -/
theorem isNearest_searchFrom {fuel distance : Nat} (hn : n ≤ limit) (h : Clear limit n distance)
    (hreach : ∃ q ≤ limit, q.Prime ∧ Nat.dist n q < distance + fuel) :
    IsNearest limit n (searchFrom limit n fuel distance) := by
  induction fuel generalizing distance with
  | zero =>
    obtain ⟨q, hq, hprime, hnear⟩ := hreach
    exact absurd (h q hq hprime) (Nat.not_le.mpr hnear)
  | succ fuel ih =>
    rw [searchFrom]
    split
    · next hbelow =>
      obtain ⟨hle, hprime⟩ := below_iff.mp hbelow
      exact h.isNearest_below hn hle hprime
    · next hbelow =>
      rw [below_iff] at hbelow
      split
      · next habove => exact h.isNearest_above hn hbelow ((test_iff _).mp habove)
      · next habove =>
        rw [test_iff] at habove
        refine ih (h.succ hbelow habove) ?_
        rwa [Nat.add_assoc, Nat.add_comm 1 fuel]

/-- The search as a whole, with any number of distances to try that reaches two. -/
theorem isNearest_of_fuel {fuel : Nat} (hn : n ≤ limit) (hlimit : 2 ≤ limit)
    (hfuel : n + 2 ≤ fuel) :
    IsNearest limit n (if test n then n else searchFrom limit n fuel 1) := by
  split
  · next hprime =>
    rw [test_iff] at hprime
    have hself := Nat.dist_self n
    refine ⟨hn, hprime, fun q _ _ => hself.symm ▸ Nat.zero_le _, fun q _ _ hq => ?_⟩
    exact (Nat.eq_of_dist_eq_zero (hq.trans hself)).le
  · next hprime =>
    rw [test_iff] at hprime
    refine isNearest_searchFrom hn (fun q _ hqprime => ?_) ⟨2, hlimit, Nat.prime_two, ?_⟩
    · refine Nat.pos_of_ne_zero fun hzero => hprime ?_
      rwa [Nat.eq_of_dist_eq_zero hzero]
    · unfold Nat.dist
      omega

end Prime

namespace Figures

/-- **The prime nearest to a count of 32 bits is found**, the lower of two equally near, and the
search for it ends by itself: with more distances to try it finds the same. -/
theorem nearestPrime_isNearest {n : Nat} (hn : n ≤ maxCount32) :
    Prime.IsNearest maxCount32 n (nearestPrime n) ∧
      ∀ fuel, n + 2 ≤ fuel →
        (if Prime.test n then n else Prime.searchFrom maxCount32 n fuel 1) = nearestPrime n := by
  have hnearest (fuel : Nat) (hfuel : n + 2 ≤ fuel) :=
    Prime.isNearest_of_fuel hn (by decide : 2 ≤ maxCount32) hfuel
  have hfound : Prime.IsNearest maxCount32 n (nearestPrime n) := hnearest (n + 2) (Nat.le_refl _)
  exact ⟨hfound, fun fuel hfuel => (hnearest fuel hfuel).unique hfound⟩

/-- Nine lies between seven and eleven, and seven is taken; zero and one have their nearest prime
above, and the greatest count has it below. -/
theorem nearestPrime_isNearest_nine :
    Prime.IsNearest maxCount32 9 7 ∧ Prime.IsNearest maxCount32 0 2 ∧
      Prime.IsNearest maxCount32 maxCount32 (nearestPrime maxCount32) :=
  ⟨(nearestPrime_isNearest (by decide : 9 ≤ maxCount32)).1,
    (nearestPrime_isNearest (by decide : 0 ≤ maxCount32)).1,
    (nearestPrime_isNearest (Nat.le_refl _)).1⟩

end Figures

end Arithmancy
