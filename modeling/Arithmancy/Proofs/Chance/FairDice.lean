import Mathlib.Algebra.Order.Floor.Div
import Mathlib.Order.Interval.Finset.Nat
import Arithmancy.Proofs.Chance.Draws

/-!
# Fair dice

A die is fair if each of its faces is drawn as often as any other. With `2 ^ 32` words this can be
so only for as many faces as divide `2 ^ 32`; for all others some faces get one word more than the
rest. That is the most that a draw goes wrong: of the words, a draw among `n` values gives each
value `2 ^ 32 / n`, rounded down or rounded up (`Source.card_wordsFor`).

A wrong scale or a bound that is off by one need not show in the values, which are held in their
range anyway. So the counting has to be about what a draw really does with a word, and for this
nothing may be rounded on the way to the value and nothing cut off at the end of it. That is so up
to `2 ^ 21` values (`Source.indexOf_fraction`). What is left is to count the words whose product
with `n` falls between two neighbouring multiples of `2 ^ 32`: they are an interval
(`filter_div_eq`), and its ends are quotients by `n` that are rounded up. The main statement is
`Source.dice_fair`.
-/

namespace Arithmancy

namespace Source

/-! ## Counting -/

section Counting

variable {a n v w N : Nat}

theorem lt_ceilDiv_iff (hn : 0 < n) {k : Nat} : k < a ⌈/⌉ n ↔ n * k < a := by
  rw [← not_le, ceilDiv_le_iff_le_mul hn, not_le]

theorem le_mul_ceilDiv (hn : 0 < n) (a : Nat) : a ≤ n * (a ⌈/⌉ n) :=
  (ceilDiv_le_iff_le_mul hn).mp le_rfl

/-- A quotient is rounded up by less than one. -/
theorem mul_ceilDiv_lt (hn : 0 < n) (a : Nat) : n * (a ⌈/⌉ n) < a + n := by
  rcases Nat.eq_zero_or_pos (a ⌈/⌉ n) with hzero | hpos
  · rw [hzero, Nat.mul_zero]
    omega
  · have hbelow := (lt_ceilDiv_iff hn).mp (Nat.sub_one_lt_of_lt hpos)
    rw [Nat.mul_sub_one] at hbelow
    omega

/-- **Two quotients rounded up** differ by the quotient of the difference, rounded down or rounded
up. -/
theorem ceilDiv_sub_cases (hn : 0 < n) (a N : Nat) :
    (a + N) ⌈/⌉ n - a ⌈/⌉ n = N / n ∨ (a + N) ⌈/⌉ n - a ⌈/⌉ n = N ⌈/⌉ n := by
  have hlow := le_mul_ceilDiv hn a
  have hlow' := mul_ceilDiv_lt hn a
  have hhigh := le_mul_ceilDiv hn (a + N)
  have hhigh' := mul_ceilDiv_lt hn (a + N)
  generalize hw : (a + N) ⌈/⌉ n - a ⌈/⌉ n = w
  have hsplit : n * w = n * ((a + N) ⌈/⌉ n) - n * (a ⌈/⌉ n) := by rw [← hw, Nat.mul_sub]
  -- the difference is less than one away from the exact quotient
  have hnear : N < n * (w + 1) := by
    rw [Nat.mul_succ]
    omega
  have hnear' : n * w < N + n := by omega
  have hdown : N / n ≤ w := Nat.lt_succ_iff.mp ((Nat.div_lt_iff_lt_mul hn).mpr (by
    rwa [Nat.mul_comm]))
  rcases Nat.eq_or_lt_of_le hdown with heq | hlt
  · exact .inl heq.symm
  · refine .inr (Nat.le_antisymm ?_ ?_)
    · have hup := le_mul_ceilDiv hn N
      refine Nat.lt_succ_iff.mp (Nat.lt_of_mul_lt_mul_left (a := n) ?_)
      rw [Nat.mul_succ]
      omega
    · refine (ceilDiv_le_iff_le_mul hn).mpr ?_
      exact (Nat.lt_mul_div_succ N hn).le.trans (Nat.mul_le_mul_left n hlt)

/-- **The numbers that select a value are an interval.** -/
theorem filter_div_eq (hN : 0 < N) (hn : 0 < n) (hv : v < n) :
    ((Finset.range N).filter fun k => k * n / N = v)
      = Finset.Ico ((v * N) ⌈/⌉ n) ((v * N + N) ⌈/⌉ n) := by
  ext k
  rw [Finset.mem_filter, Finset.mem_range, Finset.mem_Ico, ceilDiv_le_iff_le_mul hn,
    lt_ceilDiv_iff hn, Nat.mul_comm n k, ← Nat.le_div_iff_mul_le hN, ← Nat.succ_mul,
    ← Nat.div_lt_iff_lt_mul hN]
  constructor
  · rintro ⟨-, rfl⟩
    exact ⟨le_rfl, Nat.lt_succ_self _⟩
  · rintro ⟨hlow, hhigh⟩
    have heq : k * n / N = v := Nat.le_antisymm (Nat.lt_succ_iff.mp hhigh) hlow
    -- a number that selects a value in range is in range itself
    refine ⟨?_, heq⟩
    have hlt : k * n < n * N := (Nat.div_lt_iff_lt_mul hN).mp (heq ▸ hv)
    rw [Nat.mul_comm n N] at hlt
    exact Nat.lt_of_mul_lt_mul_right hlt

end Counting

/-! ## Fairness -/

/-- The words for which a draw among `n` values gives the value `v`. -/
def wordsFor (n v : Nat) : Finset Nat :=
  (Finset.range (2 ^ 32)).filter fun k => indexOf (Generator.fraction k) n = v

variable {n v : Nat}

/-- **Each value is given by as many words as any other**, up to one. -/
theorem card_wordsFor (hpos : 0 < n) (hn : n ≤ 2 ^ 21) (hv : v < n) :
    (wordsFor n v).card = 2 ^ 32 / n ∨ (wordsFor n v).card = 2 ^ 32 ⌈/⌉ n := by
  have hwords : wordsFor n v = (Finset.range (2 ^ 32)).filter fun k => k * n / 2 ^ 32 = v :=
    Finset.filter_congr fun k hk => by rw [indexOf_fraction (Finset.mem_range.mp hk) hpos hn]
  rw [hwords, filter_div_eq (Nat.two_pow_pos 32) hpos hv, Nat.card_Ico]
  exact ceilDiv_sub_cases hpos (v * 2 ^ 32) (2 ^ 32)

/-- **Dice are fair** up to one word in `2 ^ 32`. Whatever source draws a word: scaled up to `n`
values and rounded down, the word is the integer `k * n / 2 ^ 32` without further rounding, which
is less than `n`; so the index that is drawn is this integer, and the integer drawn from `n` on is
it, too, counted from the lower bound. Of all words, each value gets `2 ^ 32 / n`, rounded down or
up. The generator of an encounter is such a source; and whatever is drawn for a die, by any source,
there is a face for it. -/
theorem dice_fair (hpos : 0 < n) (hn : n ≤ 2 ^ 21) :
    (∀ {σ : Type} [Source σ Float] (s : σ) (k : Nat), Draws s k →
      Scalar.floor ((draw s).1 * Scalar.ofNat n) = Float.ofNat (k * n / 2 ^ 32) ∧
        k * n / 2 ^ 32 < n ∧ nextIndex n s = (k * n / 2 ^ 32, (draw s).2) ∧
        ∀ low : Int, nextInt low (low + n - 1) s = ((k * n / 2 ^ 32 : Nat) + low, (draw s).2)) ∧
    (∀ g : Generator Float, Draws g g.word) ∧
    (∀ v < n, (wordsFor n v).card = 2 ^ 32 / n ∨ (wordsFor n v).card = 2 ^ 32 ⌈/⌉ n) ∧
    ∀ {σ α : Type} [Scalar α] [Source σ α] (d : DieSpec) (s : σ),
      d.faces[(nextIndex d.faces.length s).1]? = some (d.roll s).1 := by
  refine ⟨fun s k h => ⟨?_, Generator.selected_lt h.1 hpos, h.nextIndex_eq hpos hn,
    h.nextInt_eq hpos hn⟩, Generator.draws_word, fun v => card_wordsFor hpos hn,
    fun d s => d.getElem?_roll s⟩
  have hlt := Generator.selected_lt h.1 hpos
  rw [h.2, Generator.floor_fraction_mul h.1 hn, Binary64.ofNat_eq_dyadic (by omega)]

/-- Six does not divide `2 ^ 32`, and each face of a die with six faces gets one of two numbers of
words; the first word of the generator with the state seven selects the first face. -/
theorem dice_fair_of_six :
    (∀ v < 6, (wordsFor 6 v).card = 715827882 ∨ (wordsFor 6 v).card = 715827883) ∧
      (nextIndex 6 (⟨7⟩ : Generator Float)).1 = 0 := by
  obtain ⟨hselects, hdraws, hcard, -⟩ := dice_fair (n := 6) (by decide) (by decide)
  refine ⟨hcard, ?_⟩
  rw [(hselects _ _ (hdraws ⟨7⟩)).2.2.1]
  decide

end Source

end Arithmancy
