import Mathlib.Algebra.Order.Ring.Rat
import Mathlib.Tactic.Linarith
import Arithmancy.Proofs.Chance.Draws

/-!
# Picks by weight

Numbers are read exactly here, whatever roots, logarithms and powers are. The weights of a list
lie side by side on a line that starts at zero: the members before a place reach as far as their
weights add up (`Source.reach`), and a pick takes the member up to whose end the drawn part of
the whole line falls. This module reads the pick so, although it is made by spending the part on
one weight after another.

An end belongs to the member that ends there. So a weight of zero owns no point of the line, and
its member is never picked, with one exception: the start of the line belongs to nobody, and it
is given to the first member whatever its weight is. The main statement,
`Source.weightedPick_by_share`, says that this happens exactly if zero is drawn.
-/

namespace Arithmancy

namespace Source

/-- **How far the members before a place reach**: their weights add up so. -/
def reach (weights : List Rat) (i : Nat) : Rat :=
  (weights.take i).foldl (fun sum weight => sum + weight) 0

theorem foldl_add (weights : List Rat) (start : Rat) :
    weights.foldl (fun sum weight => sum + weight) start
      = start + weights.foldl (fun sum weight => sum + weight) 0 := by
  induction weights generalizing start with
  | nil => exact (add_zero start).symm
  | cons weight weights ih =>
    rw [List.foldl_cons, List.foldl_cons, ih, ih (0 + weight), zero_add, add_assoc]

theorem reach_zero (weights : List Rat) : reach weights 0 = 0 := rfl

theorem reach_cons (weight : Rat) (weights : List Rat) (i : Nat) :
    reach (weight :: weights) (i + 1) = weight + reach weights i := by
  rw [reach, List.take_succ_cons, List.foldl_cons, foldl_add, zero_add]
  rfl

variable {weights : List Rat}

theorem reach_nonneg (h : ∀ weight ∈ weights, 0 ≤ weight) (i : Nat) : 0 ≤ reach weights i := by
  induction weights generalizing i with
  | nil => rw [reach, List.take_nil]; rfl
  | cons weight weights ih =>
    obtain ⟨hweight, hweights⟩ := List.forall_mem_cons.mp h
    cases i with
    | zero => exact (reach_zero _).ge
    | succ i =>
      rw [reach_cons]
      exact add_nonneg hweight (ih hweights i)

/-- A positive weight makes the line longer than nothing. -/
theorem reach_length_pos (h : ∀ weight ∈ weights, 0 ≤ weight)
    (hpos : ∃ weight ∈ weights, 0 < weight) :
    0 < reach weights weights.length := by
  induction weights with
  | nil => exact absurd hpos.choose_spec.1 List.not_mem_nil
  | cons weight weights ih =>
    obtain ⟨hweight, hweights⟩ := List.forall_mem_cons.mp h
    have hrest := reach_nonneg hweights weights.length
    rw [List.length_cons, reach_cons]
    obtain ⟨w, hw, hwpos⟩ := hpos
    rcases List.mem_cons.mp hw with rfl | hw
    · linarith
    · linarith [ih hweights ⟨w, hw, hwpos⟩]

/-- The next member reaches further by its weight. -/
theorem reach_succ {i : Nat} {weight : Rat} (h : weights[i]? = some weight) :
    reach weights (i + 1) = reach weights i + weight := by
  rw [reach, List.take_add_one, h, Option.toList_some, List.foldl_append]
  rfl

section

variable [Exact.Operations]

/-- **Spending a part of the line** on one weight after another ends at the member up to whose
end the part falls. -/
theorem exists_spend {part : Rat} (hlow : 0 ≤ part)
    (hhigh : part ≤ reach weights weights.length) (hsome : weights ≠ []) :
    ∃ i weight, weights[i]? = some weight ∧ part ≤ reach weights (i + 1)
      ∧ (reach weights i < part ∨ part = 0 ∧ i = 0)
      ∧ ∀ {β : Type} (items : List β), items.length = weights.length →
        ∃ item, items[i]? = some item ∧ spend part (items.zip weights) = some item := by
  induction weights generalizing part with
  | nil => exact absurd rfl hsome
  | cons weight weights ih =>
    rw [List.length_cons, reach_cons] at hhigh
    rcases le_or_gt part weight with hends | hgoes
    · refine ⟨0, weight, rfl, ?_, ?_, fun items hlength => ?_⟩
      · rw [reach_cons, reach_zero, add_zero]
        exact hends
      · rw [reach_zero]
        exact hlow.lt_or_eq.imp_right fun h => ⟨h.symm, rfl⟩
      · cases items with
        | nil => cases hlength
        | cons item items => exact ⟨item, rfl, if_pos (sub_nonpos.mpr hends)⟩
    · have hleft : 0 < part - weight := sub_pos.mpr hgoes
      have hrest : weights ≠ [] := by
        rintro rfl
        rw [List.length_nil, reach_zero] at hhigh
        linarith
      obtain ⟨i, w, hw, hend, hstart, hspend⟩ := ih hleft.le (by linarith) hrest
      refine ⟨i + 1, w, hw, ?_, .inl ?_, fun items hlength => ?_⟩
      · rw [reach_cons]
        linarith
      · rw [reach_cons]
        rcases hstart with hbegins | ⟨hzero, -⟩
        · linarith
        · exact absurd hzero hleft.ne'
      · cases items with
        | nil => cases hlength
        | cons item items =>
          obtain ⟨picked, hpicked, hspent⟩ := hspend items (Nat.succ.inj hlength)
          refine ⟨picked, hpicked, ?_⟩
          rw [List.zip_cons_cons, spend, if_neg (not_le.mpr hleft)]
          exact hspent

variable {σ : Type} [Source σ Rat]

/-- **A pick by weight** takes the member up to whose end the drawn part of the whole line falls.
This holds for every source, every state of it whose draw lies in the interval from zero to one,
and all weights that are not negative and not all zero. A member is picked in any case. Its
weight is positive, unless zero is drawn and the first weight is zero: then the first member is
picked nevertheless. -/
theorem weightedPick_by_share (hnonneg : ∀ weight ∈ weights, 0 ≤ weight)
    (hpos : ∃ weight ∈ weights, 0 < weight) {s : σ} (hlow : 0 ≤ (draw s).1)
    (hhigh : (draw s).1 < 1) :
    ∃ i weight, weights[i]? = some weight
      ∧ (∀ {β : Type} (items : List β), items.length = weights.length →
        ∃ item, items[i]? = some item ∧ (weightedPick items weights s).1 = some item)
      ∧ (draw s).1 * reach weights weights.length ≤ reach weights (i + 1)
      ∧ (reach weights i < (draw s).1 * reach weights weights.length ∨ (draw s).1 = 0 ∧ i = 0)
      ∧ (0 < weight ↔ ¬((draw s).1 = 0 ∧ weights[0]? = some 0)) := by
  have htotal := reach_length_pos hnonneg hpos
  have hpart : (draw s).1 * reach weights weights.length ≤ reach weights weights.length :=
    (mul_le_iff_le_one_left htotal).mpr hhigh.le
  have hsome : weights ≠ [] := List.ne_nil_of_mem hpos.choose_spec.1
  obtain ⟨i, weight, hweight, hend, hstart, hspend⟩ :=
    exists_spend (mul_nonneg hlow htotal.le) hpart hsome
  have hstart : reach weights i < (draw s).1 * reach weights weights.length
      ∨ (draw s).1 = 0 ∧ i = 0 :=
    hstart.imp_right fun h => ⟨(mul_eq_zero.mp h.1).resolve_right htotal.ne', h.2⟩
  refine ⟨i, weight, hweight, fun items hlength => ?_, hend, hstart, ?_⟩
  · obtain ⟨item, hitem, hpicked⟩ := hspend items hlength
    refine ⟨item, hitem, ?_⟩
    have hline : weights.foldl (fun sum weight => sum + weight) 0
        = reach weights weights.length := by rw [reach, List.take_length]
    show (spend ((draw s).1 * weights.foldl (fun sum weight => sum + weight) 0)
      (items.zip weights)).or items.getLast? = some item
    rw [hline, hpicked]
    rfl
  · rw [reach_succ hweight] at hend
    constructor
    · rintro hpositive ⟨hzero, hfirst⟩
      rcases hstart with hbegins | ⟨-, rfl⟩
      · rw [hzero, zero_mul] at hbegins
        exact absurd hbegins (not_lt.mpr (reach_nonneg hnonneg i))
      · obtain rfl := Option.some.inj (hweight.symm.trans hfirst)
        exact lt_irrefl 0 hpositive
    · intro hnot
      rcases hstart with hbegins | ⟨hzero, rfl⟩
      · linarith
      · refine lt_of_le_of_ne (hnonneg weight (List.mem_of_getElem? hweight)) fun heq => ?_
        exact hnot ⟨hzero, heq ▸ hweight⟩

end

/-- Of three members the one in the middle is picked, which alone has a weight. -/
theorem weightedPick_by_share_of_three :
    let weights : List Rat := [0, 1, 0]
    let g : Generator Rat := ⟨11⟩
    (∀ weight ∈ weights, 0 ≤ weight) ∧ (∃ weight ∈ weights, 0 < weight)
      ∧ 0 ≤ (draw g).1 ∧ (draw g).1 < 1
      ∧ ∃ i weight, weights[i]? = some weight ∧ 0 < weight
        ∧ (∃ item, ["a", "b", "c"][i]? = some item
          ∧ (weightedPick ["a", "b", "c"] weights g).1 = some item)
        ∧ reach weights i < (draw g).1 * reach weights weights.length
        ∧ (draw g).1 * reach weights weights.length ≤ reach weights (i + 1) := by
  intro weights g
  have hnonneg : ∀ weight ∈ weights, 0 ≤ weight := by decide +kernel
  have hpos : ∃ weight ∈ weights, 0 < weight := ⟨1, by decide +kernel, by decide +kernel⟩
  have hdraw : (draw g).1 ≠ 0 := by decide +kernel
  obtain ⟨i, weight, hweight, hpick, hend, hstart, hzero⟩ :=
    weightedPick_by_share hnonneg hpos g.draw_nonneg g.draw_lt_one
  exact ⟨hnonneg, hpos, g.draw_nonneg, g.draw_lt_one, i, weight, hweight,
    hzero.mpr fun h => hdraw h.1, hpick ["a", "b", "c"] rfl,
    hstart.resolve_right fun h => hdraw h.1, hend⟩

/-- **A member without weight is picked**: zero is drawn, and the first weight is zero. -/
theorem weightless_picked :
    let weights : List Rat := [0, 1, 0]
    let g : Generator Rat := ⟨0x92D4860B⟩
    (∀ weight ∈ weights, 0 ≤ weight) ∧ (∃ weight ∈ weights, 0 < weight)
      ∧ 0 ≤ (draw g).1 ∧ (draw g).1 < 1
      ∧ (weightedPick ["a", "b", "c"] weights g).1 = some "a" ∧ weights[0]? = some 0 := by
  decide +kernel

end Source

end Arithmancy
