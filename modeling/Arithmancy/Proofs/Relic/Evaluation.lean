import Mathlib.Data.List.Induction
import Mathlib.Data.List.Nodup
import Arithmancy.Encounter.Turn
import Arithmancy.Proofs.Relic.Bystanders

/-!
# What relics make of a value

When a result is judged, each relic finds the value as the relics acquired before it have left
it (`Relics.valueAfter`), and decides on that value what it does. Afterwards the value may still
change: relics acquired later may shift it (`Relic.shifts`), and once all have had their say it is
multiplied (`Relic.multiplies`). So a relic can be mistaken about the value that damage is judged
by. This module says when it is not (`Relics.judgedValue_eq_valueAfter`).

Two decisions are of interest. The ring wraps a value that exceeds the target, and so an overkill
is not answered (`Relics.preventOverkillDamage_adjustAll_iff`); and the relic that rewards hits
does so for the value that it finds (`Relics.raises_adjustAll`).
-/

namespace Arithmancy

variable {α : Type} [Scalar α]

/-! ## Each relic in its turn -/

/-- **Whether a relic shifts the value** that it finds, wrapping apart. -/
def Relic.shifts (v : Verdict α) : Relic → Bool
  | .decimalLens => true
  | .headStart => v.evaluations = 0
  | _ => false

/-- **Whether a relic multiplies the value**, once every relic has had its say. -/
def Relic.multiplies : Relic → Bool
  | .berserkerMark | .glassCannon => true
  | _ => false

/-- **A value hits the target** if it is closer to it than exact hits have to be. -/
def Verdict.Hits (v : Verdict α) (value : α) : Prop :=
  Scalar.abs (value - v.target) < Balance.exactTolerance

instance (v : Verdict α) (value : α) : Decidable (v.Hits value) :=
  inferInstanceAs (Decidable (Scalar.abs (value - v.target) < Balance.exactTolerance))

/-- **A value exceeds the target**, which is positive. -/
def Verdict.Exceeded (v : Verdict α) (value : α) : Prop := v.target < value ∧ 0 < v.target

/-- The amount by which an effect raises the limit of hit points, if it does. -/
def PlayerEffect.raise? : PlayerEffect → Option Nat
  | heal _ => none
  | raiseMaxHp n => some n

/-- **The value that damage is judged by**: the one that was wrapped, if one was. -/
def Appraisal.judgedValue (a : Appraisal α) : α := a.wrappedOverkill.getD a.effectiveValue

/-- The value that damage is judged by unless the result is multiplied. -/
def Adjustment.judgedValue (a : Adjustment α) : α := a.wrappedOverkill.getD a.effectiveValue

namespace Relic

/-- Two relics multiply the value. -/
theorem forall_multiplies_eq_false_iff {relics : List Relic} :
    (∀ r ∈ relics, r.multiplies = false) ↔ berserkerMark ∉ relics ∧ glassCannon ∉ relics := by
  have hsole : ∀ r : Relic, r.multiplies = false ↔ r ≠ berserkerMark ∧ r ≠ glassCannon :=
    fun r => by cases r <;> decide
  grind

omit [Scalar α] in
/-- Two relics shift the value, one of them in the first evaluation of a combat only. -/
theorem forall_shifts_eq_false_iff {relics : List Relic} {v : Verdict α} :
    (∀ r ∈ relics, r.shifts v = false)
      ↔ decimalLens ∉ relics ∧ (headStart ∈ relics → v.evaluations ≠ 0) := by
  have hsole : ∀ r : Relic, r.shifts v = false
      ↔ r ≠ decimalLens ∧ (r = headStart → v.evaluations ≠ 0) :=
    fun r => by cases r <;> simp [shifts]
  grind

variable (v : Verdict α) (a : Adjustment α) {r : Relic}

theorem onEvaluate_modularRing_of_exceeded (h : v.Exceeded a.effectiveValue) :
    modularRing.onEvaluate v a
      = { a with
          wrappedOverkill := a.wrappedOverkill.or (some a.effectiveValue)
          effectiveValue := wrap v.target a.effectiveValue
          preventOverkillDamage := true } :=
  if_pos (by rw [Bool.and_eq_true, decide_eq_true_iff, decide_eq_true_iff]; exact h)

theorem onEvaluate_modularRing_of_not_exceeded (h : ¬v.Exceeded a.effectiveValue) :
    modularRing.onEvaluate v a = a :=
  if_neg (by rw [Bool.and_eq_true, decide_eq_true_iff, decide_eq_true_iff]; exact h)

/-- Only the ring wraps. -/
theorem wrappedOverkill_onEvaluate (h : r ≠ modularRing) :
    (r.onEvaluate v a).wrappedOverkill = a.wrappedOverkill := by
  unfold onEvaluate
  split <;> first | rfl | exact absurd rfl h | (split <;> rfl)

/-- Only the ring and the mark protect. -/
theorem preventOverkillDamage_onEvaluate (hring : r ≠ modularRing) (hmark : r ≠ berserkerMark) :
    (r.onEvaluate v a).preventOverkillDamage = a.preventOverkillDamage := by
  unfold onEvaluate
  split <;> first | rfl | exact absurd rfl hring | exact absurd rfl hmark | (split <;> rfl)

theorem effectiveValue_onEvaluate (hring : r ≠ modularRing) (hsteady : r.shifts v = false) :
    (r.onEvaluate v a).effectiveValue = a.effectiveValue := by
  unfold onEvaluate
  split
  · split <;> rfl
  · exact absurd rfl hring
  · rfl
  · cases hsteady
  · exact congrArg Adjustment.effectiveValue (if_neg (of_decide_eq_false hsteady))
  · split <;> rfl
  · rfl
  · split <;> rfl
  · rfl

/-- **To wrap a value** does not change what damage is judged by. -/
theorem judgedValue_onEvaluate (hsteady : r.shifts v = false) :
    (r.onEvaluate v a).judgedValue = a.judgedValue := by
  by_cases hring : r = modularRing
  · subst hring
    by_cases hfinds : v.Exceeded a.effectiveValue
    · rw [onEvaluate_modularRing_of_exceeded v a hfinds]
      unfold Adjustment.judgedValue
      cases a.wrappedOverkill <;> rfl
    · rw [onEvaluate_modularRing_of_not_exceeded v a hfinds]
  · unfold Adjustment.judgedValue
    rw [wrappedOverkill_onEvaluate v a hring, effectiveValue_onEvaluate v a hring hsteady]

theorem damageMultiplier_onEvaluate (h : r.multiplies = false) :
    (r.onEvaluate v a).damageMultiplier = a.damageMultiplier := by
  unfold onEvaluate
  split <;> first | rfl | (split <;> rfl) | exact absurd h nofun

/-- Only one relic raises the limit of hit points. -/
theorem raises_onEvaluate (h : r ≠ perfectionist) :
    (r.onEvaluate v a).effects.filterMap PlayerEffect.raise?
      = a.effects.filterMap PlayerEffect.raise? := by
  unfold onEvaluate
  split
  · split <;> rfl
  · split <;> rfl
  · rfl
  · rfl
  · split <;> rfl
  · split
    · rw [List.filterMap_append]
      exact List.append_nil _
    · rfl
  · rfl
  · exact absurd rfl h
  · rfl

end Relic

/-! ## All relics in their order -/

namespace Relics

/-- **The value that some relics leave** to the next one. -/
def valueAfter (relics : List Relic) (v : Verdict α) : α := (adjustAll relics v).effectiveValue

variable (relics before after : List Relic) (v : Verdict α) (r : Relic)

theorem adjustAll_append :
    adjustAll (before ++ after) v
      = after.foldl (fun a r => r.onEvaluate v a) (adjustAll before v) := List.foldl_append

theorem adjustAll_concat :
    adjustAll (relics ++ [r]) v = r.onEvaluate v (adjustAll relics v) := adjustAll_append _ _ _

/-- **Judging a result** is to let every relic have its say. -/
theorem onEvaluate_fst (memo : RelicMemo) :
    (onEvaluate relics v memo).1 = appraise (adjustAll relics v) :=
  congrArg appraise (adjustAll_withHook relics v)

variable {relics before after v}

/-- **What none of some relics changes**, they do not change one after another. -/
theorem foldl_onEvaluate_keeps {β : Type} (f : Adjustment α → β)
    (h : ∀ r ∈ relics, ∀ a, f (r.onEvaluate v a) = f a) (a : Adjustment α) :
    f (relics.foldl (fun a r => r.onEvaluate v a) a) = f a :=
  List.foldlRecOn (motive := fun a' => f a' = f a) _ _ rfl
    fun a' ha r hr => (h r hr a').trans ha

theorem damageMultiplier_adjustAll (h : ∀ r ∈ relics, r.multiplies = false) :
    (adjustAll relics v).damageMultiplier = 1 :=
  foldl_onEvaluate_keeps Adjustment.damageMultiplier
    (fun r hr a => r.damageMultiplier_onEvaluate v a (h r hr)) _

/-! ## The ring -/

/-- **The ring wraps**: the value that it finds in its turn exceeds the target. -/
def Wraps (relics : List Relic) (v : Verdict α) : Prop :=
  ∃ before after, relics = before ++ .modularRing :: after ∧ v.Exceeded (valueAfter before v)

theorem not_wraps_nil : ¬Wraps [] v := by
  rintro ⟨before, after, hsplit, -⟩
  simp at hsplit

/-- Whether the ring wraps is settled relic by relic. -/
theorem wraps_concat_iff :
    Wraps (relics ++ [r]) v
      ↔ Wraps relics v ∨ r = .modularRing ∧ v.Exceeded (valueAfter relics v) := by
  constructor
  · rintro ⟨before, after, hsplit, hfinds⟩
    rcases List.eq_nil_or_concat' after with rfl | ⟨after, q, rfl⟩
    · obtain ⟨rfl, hlast⟩ := List.append_inj' hsplit rfl
      exact .inr ⟨List.singleton_inj.mp hlast, hfinds⟩
    · rw [← List.cons_append, ← List.append_assoc] at hsplit
      exact .inl ⟨before, after, (List.append_inj' hsplit rfl).1, hfinds⟩
  · rintro (⟨before, after, rfl, hfinds⟩ | ⟨rfl, hfinds⟩)
    · exact ⟨before, after ++ [r], by simp, hfinds⟩
    · exact ⟨relics, [], rfl, hfinds⟩

/-- What has been wrapped stays so, whatever is acquired later. -/
theorem Wraps.append (h : Wraps before v) (after : List Relic) : Wraps (before ++ after) v := by
  obtain ⟨before, middle, rfl, hfinds⟩ := h
  exact ⟨before, middle ++ after, by simp, hfinds⟩

/-- **A value that exceeded the target is kept in mind** if the ring wraps. -/
theorem wrappedOverkill_adjustAll_eq_none_iff :
    (adjustAll relics v).wrappedOverkill = none ↔ ¬Wraps relics v := by
  induction relics using List.reverseRecOn with
  | nil => exact iff_of_true rfl not_wraps_nil
  | append_singleton relics r ih =>
    rw [adjustAll_concat, wraps_concat_iff, not_or, ← ih]
    by_cases hring : r = .modularRing
    · subst hring
      by_cases hfinds : v.Exceeded (valueAfter relics v)
      · rw [Relic.onEvaluate_modularRing_of_exceeded _ _ hfinds]
        simp [hfinds]
      · rw [Relic.onEvaluate_modularRing_of_not_exceeded _ _ hfinds]
        simp [hfinds]
    · rw [Relic.wrappedOverkill_onEvaluate _ _ hring]
      simp [hring]

/-- **An overkill is not answered** if the mark is owned or the ring wraps, and only then. -/
theorem preventOverkillDamage_adjustAll_iff :
    (adjustAll relics v).preventOverkillDamage = true
      ↔ .berserkerMark ∈ relics ∨ Wraps relics v := by
  induction relics using List.reverseRecOn with
  | nil => exact iff_of_false nofun (not_or.mpr ⟨List.not_mem_nil, not_wraps_nil⟩)
  | append_singleton relics r ih =>
    rw [adjustAll_concat, wraps_concat_iff, List.mem_append, List.mem_singleton]
    by_cases hring : r = .modularRing
    · subst hring
      by_cases hfinds : v.Exceeded (valueAfter relics v)
      · rw [Relic.onEvaluate_modularRing_of_exceeded _ _ hfinds]
        simp [hfinds]
      · rw [Relic.onEvaluate_modularRing_of_not_exceeded _ _ hfinds]
        simp [hfinds, ih]
    · by_cases hmark : r = .berserkerMark
      · subst hmark
        exact iff_of_true rfl (.inl (.inr rfl))
      · rw [Relic.preventOverkillDamage_onEvaluate _ _ hring hmark, ih]
        simp [hring, Ne.symm hmark]

/-! ## The value that is judged -/

/-- **A relic finds the value that damage is judged by** if the ring has not wrapped it yet, no
relic multiplies it, and none acquired later shifts it. -/
theorem judgedValue_eq_valueAfter (hone : ((1 : α) == 1) = true) (hwraps : ¬Wraps before v)
    (hplain : ∀ r ∈ before ++ after, r.multiplies = false)
    (hsteady : ∀ r ∈ after, r.shifts v = false) :
    (appraise (adjustAll (before ++ after) v)).judgedValue = valueAfter before v := by
  have hvalue : (appraise (adjustAll (before ++ after) v)).effectiveValue
      = (adjustAll (before ++ after) v).effectiveValue :=
    if_pos (by rw [damageMultiplier_adjustAll hplain]; exact hone)
  have hlater := foldl_onEvaluate_keeps Adjustment.judgedValue
    (fun r hr a => r.judgedValue_onEvaluate v a (hsteady r hr)) (adjustAll before v)
  rw [← adjustAll_append, Adjustment.judgedValue, Adjustment.judgedValue,
    wrappedOverkill_adjustAll_eq_none_iff.mpr hwraps] at hlater
  rw [Appraisal.judgedValue, hvalue]
  exact hlater

/-- **Why the ring does not wrap** an overkill: the value that it finds does not exceed the target,
and is multiplied or shifted afterwards. -/
theorem exists_ring_of_not_wraps (hone : ((1 : α) == 1) = true) (htarget : 0 < v.target)
    (hover : v.target < (appraise (adjustAll relics v)).judgedValue)
    (hring : .modularRing ∈ relics) (hmark : .berserkerMark ∉ relics) (hwraps : ¬Wraps relics v) :
    ∃ before after, relics = before ++ .modularRing :: after
      ∧ ¬v.target < valueAfter before v
      ∧ (.glassCannon ∈ relics
        ∨ .decimalLens ∈ after ∨ .headStart ∈ after ∧ v.evaluations = 0) := by
  obtain ⟨before, after, rfl⟩ := List.append_of_mem hring
  have hfinds : ¬v.target < valueAfter before v :=
    fun h => hwraps ⟨before, after, rfl, h, htarget⟩
  refine ⟨before, after, rfl, hfinds, ?_⟩
  by_contra hnone
  rw [not_or, not_or, not_and] at hnone
  have hplain := Relic.forall_multiplies_eq_false_iff.mpr ⟨hmark, hnone.1⟩
  have hsteady : ∀ r ∈ .modularRing :: after, r.shifts v = false :=
    List.forall_mem_cons.mpr ⟨rfl, Relic.forall_shifts_eq_false_iff.mpr hnone.2⟩
  rw [judgedValue_eq_valueAfter hone (fun h => hwraps (h.append _)) hplain hsteady] at hover
  exact hfinds hover

/-! ## The relic that rewards hits -/

/-- **The limit is raised** by the relic that rewards hits, if the value that it finds is one. -/
theorem raises_adjustAll (h : (before ++ .perfectionist :: after).Nodup) :
    (adjustAll (before ++ .perfectionist :: after) v).effects.filterMap PlayerEffect.raise?
      = if v.Hits (valueAfter before v) then [2] else [] := by
  obtain ⟨hother, -⟩ := List.nodup_cons.mp (List.nodup_middle.mp h)
  rw [List.mem_append, not_or] at hother
  have hbefore : (adjustAll before v).effects.filterMap PlayerEffect.raise? = [] :=
    foldl_onEvaluate_keeps (fun a => a.effects.filterMap PlayerEffect.raise?)
      (fun r hr a => r.raises_onEvaluate v a fun heq => hother.1 (heq ▸ hr)) _
  have hafter := foldl_onEvaluate_keeps (fun a => a.effects.filterMap PlayerEffect.raise?)
    (fun r hr a => r.raises_onEvaluate v a fun heq => hother.2 (heq ▸ hr))
    (Relic.perfectionist.onEvaluate v (adjustAll before v))
  rw [adjustAll_append, List.foldl_cons]
  refine hafter.trans ?_
  show (if v.Hits (valueAfter before v) then
    { adjustAll before v with effects := (adjustAll before v).effects ++ [.raiseMaxHp 2] }
    else adjustAll before v).effects.filterMap PlayerEffect.raise? = _
  split
  · rw [List.filterMap_append, hbefore]
    rfl
  · exact hbefore

end Relics

end Arithmancy
