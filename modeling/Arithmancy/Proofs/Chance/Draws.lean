import Mathlib.Algebra.Order.Ring.Rat
import Arithmancy.Chance.Generator
import Arithmancy.Dice
import Arithmancy.Number.Exact
import Arithmancy.Proofs.Number.Dyadic

/-!
# Draws

A draw is a word of 32 bits divided by `2 ^ 32`, and every integer that is drawn is a
draw scaled up and rounded down. As long as the range is not larger than `2 ^ 21`,
nothing of this is rounded in floating-point arithmetic: the integer drawn is the
quotient by `2 ^ 32` of the word times the size of the range
(`Source.Draws.nextInt_eq`), and so it lies in the range. When a member of a list is picked, the
index never runs out of the list (`Source.exists_pick`), a die that is rolled shows one of its
faces (`DieSpec.getElem?_roll`), and what comes out of a shuffle is an arrangement of the list
that went in (`Source.shuffle_perm`), whatever is drawn.

Where numbers are read exactly, all that is needed of a draw is that it lies between zero and
one (`Generator.draw_nonneg`, `Generator.draw_lt_one`).
-/

namespace Arithmancy

/-! ## Picks and shuffles -/

namespace Source

variable {σ α β : Type}

/-- An exchange of two members rearranges a list; places outside of it change nothing. -/
theorem exchange_perm (items : List β) (i j : Nat) : (exchange items i j).Perm items := by
  unfold exchange
  split
  · next a b ha hb =>
    obtain ⟨hi, rfl⟩ := List.getElem?_eq_some_iff.mp ha
    obtain ⟨hj, rfl⟩ := List.getElem?_eq_some_iff.mp hb
    exact List.set_set_perm hi hj
  · exact .refl items

variable [Scalar α] [Source σ α]

theorem shuffleFrom_perm (i : Nat) (items : List β) (s : σ) :
    (shuffleFrom i items s).1.Perm items := by
  induction i generalizing items s with
  | zero => exact .refl items
  | succ i ih => exact (ih _ _).trans (exchange_perm items (i + 1) _)

/-- **A shuffle rearranges a list.** -/
theorem shuffle_perm (items : List β) (s : σ) : (shuffle items s).1.Perm items :=
  shuffleFrom_perm _ items s

/-- An index that is drawn is in range, whatever number is drawn for it. -/
theorem nextIndex_lt {n : Nat} (h : 0 < n) (s : σ) : (nextIndex n s).1 < n := by
  show min _ (n - 1) < n
  omega

/-- **One member of a list is picked**, unless it is empty. -/
theorem exists_pick {items : List β} (h : items ≠ []) (s : σ) :
    ∃ item ∈ items, ∃ s', pick items s = (some item, s') := by
  obtain ⟨first, rest, rfl⟩ := List.exists_cons_of_ne_nil h
  have hbound := nextIndex_lt (List.length_pos_of_ne_nil h) s
  refine ⟨_, List.getElem_mem hbound, (nextIndex (first :: rest).length s).2, ?_⟩
  rw [← List.getElem?_eq_getElem hbound]
  rfl

end Source

/-! ## Dice -/

namespace DieSpec

variable {σ α : Type} [Scalar α] [Source σ α]

theorem faces_ne_nil (d : DieSpec) : d.faces ≠ [] := by
  obtain ⟨t, c⟩ := d
  cases t <;> cases c <;> exact List.cons_ne_nil _ _

/-- **A roll finds the face** that the index drawn for it names, whatever number is drawn. -/
theorem getElem?_roll (d : DieSpec) (s : σ) :
    d.faces[(Source.nextIndex d.faces.length s).1]? = some (d.roll s).1 := by
  have hbound := Source.nextIndex_lt (List.length_pos_of_ne_nil d.faces_ne_nil) s
  show _ = some (d.faces[(Source.nextIndex d.faces.length s).1]?.getD 1)
  rw [List.getElem?_eq_getElem hbound, Option.getD_some]

/-- **A roll gives a face**, whatever number is drawn for it. -/
theorem roll_mem_faces (d : DieSpec) (s : σ) : (d.roll s).1 ∈ d.faces :=
  List.mem_of_getElem? (d.getElem?_roll s)

end DieSpec

/-! ## Words -/

namespace Generator

open Binary64

/-- The number from zero up to one that a word stands for. -/
def fraction (k : Nat) : Float := Scalar.ofNat k / Scalar.ofNat 0x100000000

/-- The word that is drawn next. -/
def word (g : Generator Float) : Nat := g.nextWord.1.toNat

theorem word_lt (g : Generator Float) : g.word < 2 ^ 32 := g.nextWord.1.toNat_lt

theorem ofNat_eq (n : Nat) : (Scalar.ofNat n : Float) = Float.ofNat n := rfl

variable {k n : Nat}

/-- A word is divided by `2 ^ 32` exactly. -/
theorem fraction_eq (hk : k < 2 ^ 32) : fraction k = dyadic k (-32) := by
  have hdivisor : Float.ofNat 0x100000000 = dyadic 1 32 := by
    rw [ofNat_eq_dyadic (by decide)]
    exact dyadic_mul_two_pow (k := 1) 32 (by decide) 0
  have hquotient := div_two_pow (a := k) (e := 0) (n := 32) (by omega) (by decide) (by decide)
    (by decide) (by decide)
  rw [Int.zero_sub] at hquotient
  rw [fraction, ofNat_eq, ofNat_eq, hdivisor, ofNat_eq_dyadic (by omega)]
  exact hquotient

/-- What a word selects among `n` values is below `n`. -/
theorem selected_lt (hk : k < 2 ^ 32) (hn : 0 < n) : k * n / 2 ^ 32 < n :=
  (Nat.div_lt_iff_lt_mul (by decide)).mpr
    (Nat.lt_of_lt_of_eq (Nat.mul_lt_mul_of_pos_right hk hn) (Nat.mul_comm _ _))

/-- **A word scaled up and rounded down**, without any rounding but that. -/
theorem floor_fraction_mul (hk : k < 2 ^ 32) (hn : n ≤ 2 ^ 21) :
    Scalar.floor (fraction k * Scalar.ofNat n) = dyadic (k * n / 2 ^ 32) 0 := by
  have hproduct : k * n < 2 ^ 53 := by
    have hle : k * n ≤ k * 2 ^ 21 := Nat.mul_le_mul_left _ hn
    omega
  have hscaled : dyadic k (-32) * dyadic n 0 = dyadic (k * n) (-32) := by
    have h := mul_dyadic (a := k) (b := n) (e := -32) (f := 0) (by omega) (by omega) hproduct
      (by decide) (by decide) (by decide) (by decide) (by decide)
    rw [Int.add_zero] at h
    exact h
  rw [fraction_eq hk, ofNat_eq, ofNat_eq_dyadic (by omega), hscaled]
  exact floor_dyadic (n := 32) hproduct (by decide)

/-- The integer part of what was rounded down, between bounds that it does not reach. -/
theorem clamp_floor_fraction_mul {low high : Int} (hk : k < 2 ^ 32) (hpos : 0 < n)
    (hn : n ≤ 2 ^ 21) (hlow : low ≤ 0) (hhigh : n ≤ high) :
    Scalar.clamp low high (Scalar.floor (fraction k * Scalar.ofNat n))
      = (k * n / 2 ^ 32 : Nat) := by
  have hlt := selected_lt hk hpos
  rw [floor_fraction_mul hk hn]
  refine (clamp_dyadic (by omega) low high).trans ?_
  omega

end Generator

/-! ## Draws -/

namespace Source

variable {σ : Type} [Source σ Float] {s : σ} {k n : Nat}

/-- **A source draws a word** if the number that it draws is the one for which the word stands. -/
def Draws (s : σ) (k : Nat) : Prop := k < 2 ^ 32 ∧ (draw s).1 = Generator.fraction k

/-- **An integer that is drawn** is what the word selects in the range. -/
theorem Draws.nextInt_eq (h : Draws s k) (hpos : 0 < n) (hn : n ≤ 2 ^ 21) (low : Int) :
    nextInt low (low + n - 1) s = ((k * n / 2 ^ 32 : Nat) + low, (draw s).2) := by
  obtain ⟨hk, hdraw⟩ := h
  have hsize : low + n - 1 - low + 1 = (n : Int) := by omega
  rw [nextInt, hsize]
  show (Scalar.clamp minInt64 maxInt64 (Scalar.floor ((draw s).1 * Scalar.ofNat n)) + low,
    (draw s).2) = _
  rw [hdraw, Generator.clamp_floor_fraction_mul hk hpos hn (by decide)
    (by unfold maxInt64; omega)]

/-- The index that a word selects does not reach the bound at which it would be cut off. -/
theorem indexOf_fraction (hk : k < 2 ^ 32) (hpos : 0 < n) (hn : n ≤ 2 ^ 21) :
    indexOf (Generator.fraction k) n = k * n / 2 ^ 32 := by
  have hlt := Generator.selected_lt hk hpos
  rw [indexOf, Scalar.toNat, Generator.clamp_floor_fraction_mul hk hpos hn (by decide)
    (by unfold maxCount64; omega), Int.toNat_natCast, Nat.min_eq_left (by omega)]

/-- **An index that is drawn** is what the word selects. -/
theorem Draws.nextIndex_eq (h : Draws s k) (hpos : 0 < n) (hn : n ≤ 2 ^ 21) :
    nextIndex n s = (k * n / 2 ^ 32, (draw s).2) := by
  obtain ⟨hk, hdraw⟩ := h
  show (indexOf (draw s).1 n, (draw s).2) = _
  rw [hdraw, indexOf_fraction hk hpos hn]

end Source

namespace Generator

/-- **A generator draws its next word.** -/
theorem draws_word (g : Generator Float) : Source.Draws g g.word := ⟨g.word_lt, rfl⟩

/-- **A die rolled by a monster** shows one of its faces. -/
theorem nextInt_mem (g : Generator Float) {sides : Nat} (hpos : 0 < sides) (hle : sides ≤ 2 ^ 21) :
    1 ≤ (Source.nextInt 1 sides g).1 ∧ (Source.nextInt 1 sides g).1 ≤ sides := by
  have hlt := selected_lt g.word_lt hpos
  have h := g.draws_word.nextInt_eq hpos hle 1
  rw [show (1 : Int) + sides - 1 = sides by omega] at h
  rw [h]
  omega

/-! ## Exact draws -/

variable [Exact.Operations]

theorem draw_nonneg (g : Generator Rat) : 0 ≤ (Source.draw g).1 := by
  show (0 : Rat) ≤ ((g.nextWord.1.toNat : Int) : Rat) / ((0x100000000 : Nat) : Int)
  exact div_nonneg (by exact_mod_cast g.nextWord.1.toNat.zero_le) (by decide +kernel)

theorem draw_lt_one (g : Generator Rat) : (Source.draw g).1 < 1 := by
  show ((g.nextWord.1.toNat : Int) : Rat) / ((0x100000000 : Nat) : Int) < 1
  rw [Rat.div_lt_iff (by decide +kernel), one_mul]
  exact_mod_cast g.nextWord.1.toNat_lt

end Generator

end Arithmancy
