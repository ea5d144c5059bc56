import Mathlib.Data.List.Pairwise
import Arithmancy.Condition.Draw
import Arithmancy.Proofs.Chance.Draws

/-!
# The conditions that are drawn

The conditions of an encounter are kept one by one while the shuffled pool of the floor is
walked. Two conditions clash if they conflict, or if they are about the same thing and that
is not numbers; a condition is kept if it clashes with none that was kept before and the
encounter supports it.

So what is kept is admissible (`Condition.Admissible`), in whatever order the pool comes;
and unless the limit is reached nothing can be added to it. The second needs that a kept
condition stays kept: what stands in the way of a candidate when it is passed over is still
there at the end.

The pool of a floor is a table by floors. It is also read the other way round, by the floors of
each condition (`Condition.mem_floorPool_iff`).
-/

namespace Arithmancy

namespace Condition

/-- **Two conditions clash** if they conflict, or if they share a category that may not
repeat. -/
def Clash (a b : Condition) : Prop :=
  a.conflictsWith b = true ∨ a.category = b.category ∧ a.category ≠ .number

theorem Clash.symm {a b : Condition} (h : Clash a b) : Clash b a := by
  rcases h with hconflict | ⟨hsame, hnumber⟩
  · exact .inl (conflictsWith_comm a b ▸ hconflict)
  · exact .inr ⟨hsame.symm, hsame ▸ hnumber⟩

instance : Std.Symm fun a b : Condition => ¬Clash a b :=
  ⟨fun _ _ hapart hclash => hapart hclash.symm⟩

theorem conflictsWith_self (c : Condition) : c.conflictsWith c = false := by
  cases c <;> rfl

/-- A condition fits beside those it does not clash with. -/
theorem fitsBeside_iff {kept : List Condition} {c : Condition} :
    fitsBeside kept c = true ↔ ∀ k ∈ kept, ¬Clash k c := by
  simp only [fitsBeside, Bool.and_eq_true, Bool.or_eq_true, Bool.not_eq_true', beq_iff_eq,
    List.any_eq_false, Clash, not_or, not_and, not_not, conflictsWith_comm c]
  constructor
  · rintro ⟨hcategory, hconflict⟩ k hk
    refine ⟨hconflict k hk, fun hsame => ?_⟩
    rcases hcategory with hnumber | hfree
    · exact hsame.trans hnumber
    · exact absurd hsame (hfree k hk)
  · intro hall
    refine ⟨?_, fun k hk => (hall k hk).1⟩
    by_cases hnumber : c.category = .number
    · exact .inl hnumber
    · exact .inr fun k hk hsame => hnumber (hsame ▸ (hall k hk).2 hsame)

/-! ## Pools -/

/-- **The floors of a condition.** Parity is asked for on every floor. Overkills are forgiven on
the first two floors and from the hundredth on; every other condition begins on a floor between
and ends before the hundredth. -/
def OnFloor (floor : Nat) : Condition → Prop
  | evenOnly | oddOnly => True
  | gentle => floor ≤ 1 ∨ 100 ≤ floor
  | noOverkill | mustOverkill | useThreeDice | maxTwoOps | noFractions => 2 ≤ floor ∧ floor < 100
  | harsh | glassCannon | tightWindow | singleDie | decimalTarget => 5 ≤ floor ∧ floor < 100
  | useAllDice => 8 ≤ floor ∧ floor < 100

/-- **The pool of a floor** lists the conditions of that floor, all of them and no others. -/
theorem mem_floorPool_iff {floor : Nat} {c : Condition} :
    c ∈ floorPool floor ↔ c.OnFloor floor := by
  unfold floorPool
  repeat' split
  all_goals cases c <;> simp [OnFloor] <;> omega

/-- No pool lists a condition twice. -/
theorem nodup_floorPool (floor : Nat) : (floorPool floor).Nodup := by
  unfold floorPool
  repeat' split
  all_goals decide

/-! ## What an encounter supports -/

variable {α : Type} [Scalar α]

/-- **An encounter supports a condition**: a single die is asked for only if the monster does
not have more than 30 hit points, and a target with decimals only if the hand holds an
operator that produces fractions. To have no more than 30 is to have 30 at most, except where
hit points are undefined, which those of a new monster never are. -/
def Supported (hp : α) (hand : List Operator) (c : Condition) : Prop :=
  (c = singleDie → ¬30 < hp)
    ∧ (c = decimalTarget → ∃ op ∈ hand, op.producesFractions = true)

theorem feasible_iff {hp : α} {hand : List Operator} {c : Condition} :
    feasible hp hand c = true ↔ Supported hp hand c := by
  cases c with
  | singleDie =>
    have hhp : feasible hp hand singleDie = true ↔ ¬30 < hp := by
      rw [feasible, Bool.not_eq_true', decide_eq_false_iff_not]
      rfl
    simp [hhp, Supported]
  | decimalTarget => simp [feasible, Supported]
  | _ => simp [feasible, Supported]

/-! ## The walk -/

/-- **Conditions that fit together**: there are not too many of them, no two clash, and the
encounter supports each. -/
structure Fitting (limit : Nat) (hp : α) (hand : List Operator) (kept : List Condition) :
    Prop where
  /-- They are not more than the limit. -/
  few : kept.length ≤ limit
  /-- No two of them clash. -/
  apart : kept.Pairwise fun a b => ¬Clash a b
  /-- The encounter supports each of them. -/
  supported : ∀ c ∈ kept, Supported hp hand c

variable {limit : Nat} {hp : α} {hand : List Operator}

theorem fitting_nil : Fitting limit hp hand [] :=
  ⟨Nat.zero_le limit, .nil, fun _ hc => nomatch hc⟩

/-- One condition more is kept if there is room for it and nothing is in its way. -/
theorem Fitting.concat {kept : List Condition} {c : Condition} (h : Fitting limit hp hand kept)
    (hroom : kept.length < limit) (hfits : ∀ k ∈ kept, ¬Clash k c)
    (hsupported : Supported hp hand c) : Fitting limit hp hand (kept ++ [c]) := by
  refine ⟨?_, ?_, ?_⟩
  · rw [List.length_append]
    exact hroom
  · refine List.pairwise_append.mpr ⟨h.apart, List.pairwise_singleton _ c, fun k hk c' hc' => ?_⟩
    exact List.mem_singleton.mp hc' ▸ hfits k hk
  · exact List.forall_mem_append.mpr ⟨h.supported, List.forall_mem_singleton.mpr hsupported⟩

section

variable (limit : Nat) (hp : α) (hand : List Operator)

/-- **One step of the walk**: the candidate is kept if there is room for it and nothing is in
its way, it is passed over if something is, and the walk ends if there is no room. -/
theorem keepFitting_cons (kept : List Condition) (c : Condition) (cs : List Condition) :
    (limit ≤ kept.length ∧ keepFitting limit hp hand kept (c :: cs) = kept)
      ∨ (kept.length < limit ∧ (∀ k ∈ kept, ¬Clash k c) ∧ Supported hp hand c
        ∧ keepFitting limit hp hand kept (c :: cs) = keepFitting limit hp hand (kept ++ [c]) cs)
      ∨ (((∃ k ∈ kept, Clash k c) ∨ ¬Supported hp hand c)
        ∧ keepFitting limit hp hand kept (c :: cs) = keepFitting limit hp hand kept cs) := by
  rw [keepFitting]
  split
  · next hfull => exact .inl ⟨hfull, rfl⟩
  · next hroom =>
    split
    · next hkeep =>
      obtain ⟨hfits, hfeasible⟩ := Bool.and_eq_true_iff.mp hkeep
      exact .inr (.inl ⟨Nat.lt_of_not_le hroom, fitsBeside_iff.mp hfits,
        feasible_iff.mp hfeasible, rfl⟩)
    · next hpass =>
      refine .inr (.inr ⟨?_, rfl⟩)
      rw [Bool.and_eq_true, fitsBeside_iff, feasible_iff, not_and_or] at hpass
      refine hpass.imp_left fun hclash => ?_
      simpa only [not_forall, not_not, exists_prop] using hclash

/-- What is kept stays kept, and what is added comes from the candidates in their order. -/
theorem exists_keepFitting_eq (kept cs : List Condition) :
    ∃ added, added.Sublist cs ∧ keepFitting limit hp hand kept cs = kept ++ added := by
  induction cs generalizing kept with
  | nil => exact ⟨[], .slnil, (List.append_nil kept).symm⟩
  | cons c cs ih =>
    rcases keepFitting_cons limit hp hand kept c cs with
      ⟨-, hstop⟩ | ⟨-, -, -, hkeep⟩ | ⟨-, hpass⟩
    · exact ⟨[], List.nil_sublist _, hstop.trans (List.append_nil kept).symm⟩
    · obtain ⟨added, hadded, heq⟩ := ih (kept ++ [c])
      refine ⟨c :: added, hadded.cons_cons c, ?_⟩
      rw [hkeep, heq, List.append_assoc, List.singleton_append]
    · obtain ⟨added, hadded, heq⟩ := ih kept
      exact ⟨added, hadded.cons c, hpass.trans heq⟩

end

theorem mem_keepFitting_of_mem {kept : List Condition} {k : Condition} (hk : k ∈ kept)
    (cs : List Condition) : k ∈ keepFitting limit hp hand kept cs := by
  obtain ⟨added, -, heq⟩ := exists_keepFitting_eq limit hp hand kept cs
  rw [heq]
  exact List.mem_append_left added hk

/-- **The walk keeps only what fits together.** -/
theorem Fitting.keepFitting {kept : List Condition} (h : Fitting limit hp hand kept)
    (cs : List Condition) : Fitting limit hp hand (keepFitting limit hp hand kept cs) := by
  induction cs generalizing kept with
  | nil => exact h
  | cons c cs ih =>
    rcases keepFitting_cons limit hp hand kept c cs with
      ⟨-, hstop⟩ | ⟨hroom, hfits, hsupported, hkeep⟩ | ⟨-, hpass⟩
    · rw [hstop]
      exact h
    · rw [hkeep]
      exact ih (h.concat hroom hfits hsupported)
    · rw [hpass]
      exact ih h

/-- **The walk passes over nothing that fits**: unless the limit is reached, a candidate that
is not kept clashes with one that is, or is not supported. -/
theorem keepFitting_maximal {kept cs : List Condition}
    (hroom : (keepFitting limit hp hand kept cs).length < limit) {c : Condition} (hc : c ∈ cs)
    (hout : c ∉ keepFitting limit hp hand kept cs) :
    (∃ k ∈ keepFitting limit hp hand kept cs, Clash k c) ∨ ¬Supported hp hand c := by
  induction cs generalizing kept with
  | nil => cases hc
  | cons c' cs ih =>
    rcases keepFitting_cons limit hp hand kept c' cs with
      ⟨hfull, hstop⟩ | ⟨-, -, -, hkeep⟩ | ⟨hreason, hpass⟩
    · rw [hstop] at hroom
      exact absurd hfull (Nat.not_le.mpr hroom)
    · rw [hkeep] at hroom hout ⊢
      rcases List.mem_cons.mp hc with rfl | hc
      · exact absurd (mem_keepFitting_of_mem (List.mem_concat_self) cs) hout
      · exact ih hroom hc hout
    · rw [hpass] at hroom hout ⊢
      rcases List.mem_cons.mp hc with rfl | hc
      · -- what was in its way is still there at the end of the walk
        exact hreason.imp_left fun ⟨k, hk, hclash⟩ => ⟨k, mem_keepFitting_of_mem hk cs, hclash⟩
      · exact ih hroom hc hout

/-! ## The draw -/

/-- **Admissible conditions** for an encounter with a monster, on a floor and for a hand. -/
structure Admissible (floor : Nat) (hp : α) (hand : List Operator) (modifiers : Modifiers α)
    (picked : List Condition) : Prop where
  /-- They are eligible on the floor. -/
  eligible : picked ⊆ floorPool floor
  /-- None is there twice. -/
  nodup : picked.Nodup
  /-- They are no more than the ascension allows, and never more than three. -/
  few : picked.length ≤ min modifiers.maxConditions 3
  /-- No two of them conflict. -/
  peaceful : ∀ a ∈ picked, ∀ b ∈ picked, a.conflictsWith b = false
  /-- Two of them share a category only if they are about numbers. -/
  distinct : ∀ a ∈ picked, ∀ b ∈ picked, a ≠ b → a.category = b.category → a.category = .number
  /-- A single die is asked for only if the monster has no more than 30 hit points. This differs
  from 30 at most only where hit points are undefined. -/
  single : singleDie ∈ picked → ¬30 < hp
  /-- A target with decimals is there only if an operator produces fractions. -/
  decimal : decimalTarget ∈ picked → ∃ op ∈ hand, op.producesFractions = true

/-- Conditions of a floor that fit together are admissible. -/
theorem Fitting.admissible {floor : Nat} {modifiers : Modifiers α} {picked : List Condition}
    (h : Fitting (min modifiers.maxConditions 3) hp hand picked)
    (heligible : picked ⊆ floorPool floor) (hnodup : picked.Nodup) :
    Admissible floor hp hand modifiers picked := by
  have hapart : ∀ a ∈ picked, ∀ b ∈ picked, a ≠ b → ¬Clash a b := fun a ha b hb hne =>
    h.apart.forall ha hb hne
  refine ⟨heligible, hnodup, h.few, fun a ha b hb => ?_, fun a ha b hb hne hsame => ?_,
    fun hmem => (h.supported _ hmem).1 rfl, fun hmem => (h.supported _ hmem).2 rfl⟩
  · by_cases hne : a = b
    · exact hne ▸ conflictsWith_self a
    · exact Bool.eq_false_iff.mpr fun hconflict => hapart a ha b hb hne (.inl hconflict)
  · exact not_not.mp fun hnumber => hapart a ha b hb hne (.inr ⟨hsame, hnumber⟩)

variable {σ : Type} [Source σ α]

/-- **What is drawn** on a floor: nothing on the lowest floor and if the chance is missed, and
what the walk keeps of the shuffled pool otherwise. -/
theorem pick_cases (floor : Nat) (hp : α) (hand : List Operator) (modifiers : Modifiers α)
    (s : σ) :
    (floor = 0 ∧ pick floor hp hand modifiers s = ([], s))
      ∨ (floor ≠ 0 ∧ chance floor < (Source.draw s).1
        ∧ (pick floor hp hand modifiers s).1 = [])
      ∨ (floor ≠ 0 ∧ ¬chance floor < (Source.draw s).1
        ∧ ∃ candidates, candidates.Perm (floorPool floor)
          ∧ (pick floor hp hand modifiers s).1
            = keepFitting (min modifiers.maxConditions 3) hp hand [] candidates) := by
  unfold pick
  split
  · next hfloor => exact .inl ⟨hfloor, rfl⟩
  · next hfloor =>
    dsimp only
    split
    · next hmissed => exact .inr (.inl ⟨hfloor, hmissed, rfl⟩)
    · next hpassed => exact .inr (.inr ⟨hfloor, hpassed, _, Source.shuffle_perm _ _, rfl⟩)

/-- **No two conditions that are drawn clash.** -/
theorem not_clash_of_mem_pick {floor : Nat} {modifiers : Modifiers α} {s : σ} {a b : Condition}
    (ha : a ∈ (pick floor hp hand modifiers s).1) (hb : b ∈ (pick floor hp hand modifiers s).1)
    (hne : a ≠ b) : ¬Clash a b := by
  rcases pick_cases floor hp hand modifiers s with
    ⟨-, hpick⟩ | ⟨-, -, hpick⟩ | ⟨-, -, candidates, -, hpick⟩
  · rw [hpick] at ha
    cases ha
  · rw [hpick] at ha
    cases ha
  · rw [hpick] at ha hb
    exact (fitting_nil.keepFitting candidates).apart.forall ha hb hne

/-- **The conditions that are drawn are admissible, and as many as possible.** This holds on
every floor, for every source of chance, monster, hand and ascension. On the lowest floor
there are none, and nothing is drawn from the source. On any other, if the chance is not
missed and the limit is not reached, every eligible condition that is left out clashes with
one that is there, or the encounter does not support it. -/
theorem pick_admissible_and_maximal (floor : Nat) (hp : α) (hand : List Operator)
    (modifiers : Modifiers α) (s : σ) :
    Admissible floor hp hand modifiers (pick floor hp hand modifiers s).1
      ∧ (floor = 0 → pick floor hp hand modifiers s = ([], s))
      ∧ (1 ≤ floor → ¬chance floor < (Source.draw s).1 →
        (pick floor hp hand modifiers s).1.length < min modifiers.maxConditions 3 →
        ∀ c ∈ floorPool floor, c ∉ (pick floor hp hand modifiers s).1 →
          (∃ k ∈ (pick floor hp hand modifiers s).1, Clash k c) ∨ ¬Supported hp hand c) := by
  have hnone : Admissible floor hp hand modifiers [] :=
    fitting_nil.admissible (List.nil_subset _) .nil
  rcases pick_cases floor hp hand modifiers s with
    ⟨hzero, hpick⟩ | ⟨hfloor, hmissed, hpick⟩ | ⟨hfloor, hpassed, candidates, hperm, hpick⟩
  · refine ⟨?_, fun _ => hpick, fun hpos => ?_⟩
    · rw [hpick]
      exact hnone
    · rw [hzero] at hpos
      cases hpos
  · rw [hpick]
    exact ⟨hnone, fun hzero => absurd hzero hfloor, fun _ hpassed => absurd hmissed hpassed⟩
  · rw [hpick]
    refine ⟨?_, fun hzero => absurd hzero hfloor, fun _ _ hroom c hc hout => ?_⟩
    · obtain ⟨added, hadded, heq⟩ :=
        exists_keepFitting_eq (min modifiers.maxConditions 3) hp hand [] candidates
      rw [List.nil_append] at heq
      refine (fitting_nil.keepFitting candidates).admissible ?_ ?_
      · rw [heq]
        exact List.Subset.trans hadded.subset hperm.subset
      · rw [heq]
        exact hadded.nodup (hperm.nodup_iff.mpr (nodup_floorPool floor))
    · exact keepFitting_maximal hroom (hperm.mem_iff.mpr hc) hout

end Condition

end Arithmancy
