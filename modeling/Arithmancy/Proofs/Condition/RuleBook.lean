import Mathlib.Algebra.Order.Ring.Rat
import Mathlib.Tactic.Linarith
import Arithmancy.Proofs.Condition.Selection
import Arithmancy.Proofs.Encounter.Foresight
import Arithmancy.Proofs.Encounter.Remainder

/-!
# The rule book of a result

Numbers are read exactly here, whatever roots, logarithms and powers are. Three distances decide
where a result lands: the tolerance within which it is exact, the threshold within which it is a
near miss, and the window that one condition allows. They overlap, and exactness cuts into the
other two from both sides. The rule book (`DamageRules.ByTheBook`) says where a result lands in
terms of these distances alone, and the main statement, `DamageRules.judge_by_the_book`, is that
every result is judged so.

Conditions come in the order of a shuffle. That order can decide no more than which reason is
given when several conditions block a result (`DamageRules.judge_perm`). Among the conditions that
are drawn for an encounter there are no two that could: what blocks a result is about targets, and
two conditions about targets clash (`DamageRules.judge_perm_of_apart`).
-/

namespace Arithmancy

namespace DamageRules

/-! ## Conditions in another order -/

section

variable {α : Type} [Scalar α] (rules : DamageRules α) (result target : α)

/-- Whatever blocks a result is about targets. -/
theorem category_of_gate? {condition : Condition} {reason : BlockReason α}
    (h : rules.gate? result target condition = some reason) : condition.category = .targeting := by
  unfold gate? at h
  split at h <;> first | rfl | cases h

variable {conditions conditions' : List Condition}

/-- Where nothing blocks a result, it lands where it lands in whatever order the conditions
come. -/
theorem land_perm (h : conditions'.Perm conditions) :
    rules.land conditions' result target = rules.land conditions result target := by
  have hcontains (c : Condition) : conditions'.contains c = conditions.contains c :=
    h.contains_eq
  unfold land wound
  rw [hcontains .gentle, hcontains .glassCannon]

/-- **The order of the conditions** decides no more than the reason for which a result is
blocked. -/
theorem judge_perm (h : conditions'.Perm conditions) :
    rules.judge conditions' result target = rules.judge conditions result target
      ∨ ∃ reason reason', rules.judge conditions' result target = .blocked reason'
        ∧ rules.judge conditions result target = .blocked reason := by
  have hsome : (conditions'.findSome? (rules.gate? result target)).isSome
      = (conditions.findSome? (rules.gate? result target)).isSome := by
    rw [List.isSome_findSome?, List.isSome_findSome?, h.any_eq]
  unfold judge
  cases hfirst : conditions.findSome? (rules.gate? result target) with
  | none =>
    rw [hfirst, Option.isSome_none, Option.isSome_eq_false_iff, Option.isNone_iff_eq_none] at hsome
    rw [hsome]
    exact .inl (rules.land_perm result target h)
  | some reason =>
    rw [hfirst, Option.isSome_some] at hsome
    obtain ⟨reason', hfirst'⟩ := Option.isSome_iff_exists.mp hsome
    rw [hfirst']
    exact .inr ⟨reason, reason', rfl, rfl⟩

/-- **Conditions of which one at most is about targets** judge a result alike in every order. -/
theorem judge_perm_of_apart
    (hapart : ∀ a ∈ conditions, ∀ b ∈ conditions, a.category = .targeting →
      b.category = .targeting → a = b) (h : conditions'.Perm conditions) :
    rules.judge conditions' result target = rules.judge conditions result target := by
  rcases rules.judge_perm result target h with hsame | ⟨reason, reason', hjudge', hjudge⟩
  · exact hsame
  · have hreason := congrArg Outcome.blockReason? hjudge
    have hreason' := congrArg Outcome.blockReason? hjudge'
    rw [blockReason?_judge] at hreason hreason'
    -- the two conditions that block are both about targets, and so they are one
    obtain ⟨a, ha, hblocks⟩ := List.exists_of_findSome?_eq_some hreason
    obtain ⟨b, hb, hblocks'⟩ := List.exists_of_findSome?_eq_some hreason'
    obtain rfl := hapart a ha b (h.mem_iff.mp hb) (rules.category_of_gate? result target hblocks)
      (rules.category_of_gate? result target hblocks')
    rw [hjudge, hjudge', Option.some.inj (hblocks.symm.trans hblocks')]

end

/-! ## The rule book -/

variable (rules : DamageRules Rat) (conditions : List Condition) (result target : Rat)

/-- **What a condition blocks, and why.** -/
inductive Blocks (rules : DamageRules Rat) (result target : Rat) :
    Condition → BlockReason Rat → Prop where
  /-- The target must not be exceeded. -/
  | noOverkill (hover : target + rules.exactTolerance ≤ result) :
      Blocks rules result target .noOverkill .noOverkill
  /-- The target must be exceeded. -/
  | mustOverkill (hover : result < target + rules.exactTolerance) :
      Blocks rules result target .mustOverkill .mustOverkill
  /-- The target must not be missed by more than the window. -/
  | tightWindow (hwindow : rules.tightWindow < |result - target|)
      (hmiss : rules.exactTolerance ≤ |result - target|) :
      Blocks rules result target .tightWindow .tightWindow

variable {rules conditions result target} in
/-- What blocks a result, condition by condition. -/
theorem exists_blocks_iff :
    (∃ c ∈ conditions, ∃ reason, rules.Blocks result target c reason) ↔
      .noOverkill ∈ conditions ∧ target + rules.exactTolerance ≤ result
        ∨ .mustOverkill ∈ conditions ∧ result < target + rules.exactTolerance
        ∨ .tightWindow ∈ conditions ∧ rules.tightWindow < |result - target|
          ∧ rules.exactTolerance ≤ |result - target| := by
  constructor
  · rintro ⟨c, hc, reason, hblocks⟩
    cases hblocks with
    | noOverkill hover => exact .inl ⟨hc, hover⟩
    | mustOverkill hover => exact .inr (.inl ⟨hc, hover⟩)
    | tightWindow hwindow hmiss => exact .inr (.inr ⟨hc, hwindow, hmiss⟩)
  · rintro (⟨hc, hover⟩ | ⟨hc, hover⟩ | ⟨hc, hwindow, hmiss⟩)
    · exact ⟨_, hc, _, .noOverkill hover⟩
    · exact ⟨_, hc, _, .mustOverkill hover⟩
    · exact ⟨_, hc, _, .tightWindow hwindow hmiss⟩

/-- **The rule book**: what becomes of a result that meets some conditions on its way to the
target. -/
structure ByTheBook [Exact.Operations] (rules : DamageRules Rat) (conditions : List Condition)
    (result target : Rat) (o : Outcome Rat) : Prop where
  /-- A result is blocked by what it must not do or fails to do. -/
  blocked : o.blockReason? ≠ none ↔
    .noOverkill ∈ conditions ∧ target + rules.exactTolerance ≤ result
      ∨ .mustOverkill ∈ conditions ∧ result < target + rules.exactTolerance
      ∨ .tightWindow ∈ conditions ∧ rules.tightWindow < |result - target|
        ∧ rules.exactTolerance ≤ |result - target|
  /-- The reason is that of the first condition that blocks it. -/
  reason : ∀ reason, o.blockReason? = some reason →
    ∃ before condition after, conditions = before ++ condition :: after
      ∧ rules.Blocks result target condition reason
      ∧ ∀ c ∈ before, ∀ r, ¬rules.Blocks result target c r
  /-- Otherwise it is exact within the tolerance, -/
  exact : o.blockReason? = none →
    (o.isExact = true ↔ |result - target| < rules.exactTolerance)
  /-- an overkill beyond it, -/
  overkill : o.blockReason? = none →
    (o.isOverkill = true ↔ target + rules.exactTolerance ≤ result)
  /-- a near miss before it, up to the threshold, -/
  nearMiss : o.blockReason? = none →
    (o.isNearMiss = true ↔ result ≤ target - rules.exactTolerance
      ∧ target - result ≤ rules.nearMissThreshold)
  /-- and an underkill in all other cases. -/
  underkill : o.blockReason? = none →
    (o.isUnderkill = true ↔
      ¬|result - target| < rules.exactTolerance ∧ ¬target + rules.exactTolerance ≤ result
        ∧ ¬(result ≤ target - rules.exactTolerance
          ∧ target - result ≤ rules.nearMissThreshold))
  /-- The monster strikes back unless the hit is exact, or an overkill under the condition that
  forgives it. -/
  retaliate : o.retaliate = true ↔
    ¬(o.isExact = true ∨ o.isOverkill = true ∧ .gentle ∈ conditions)
  /-- What kills deals the target, what falls short wounds, and what is blocked does neither. -/
  dealt : o.dealt = if o.isLethal then target
    else if o.isUnderkill then wound conditions result else 0

section

variable [Exact.Operations]

section

variable {rules conditions result target}

theorem isExact_iff :
    rules.isExact result target = true ↔ |result - target| < rules.exactTolerance := by
  rw [isExact, distance, Exact.abs_eq, decide_eq_true_iff]

section

variable (htolerance : 0 < rules.exactTolerance)

include htolerance

/-- What lies beyond the target and is not exact lies beyond it by the tolerance. -/
theorem isOver_iff :
    rules.isOver result target = true ↔ target + rules.exactTolerance ≤ result := by
  rw [isOver, Bool.and_eq_true, decide_eq_true_iff, Bool.not_eq_true', ← Bool.not_eq_true,
    isExact_iff, not_lt, le_abs]
  constructor
  · rintro ⟨hover, hmiss | hmiss⟩ <;> linarith
  · intro h
    exact ⟨by linarith, .inl (by linarith)⟩

/-- What lies below the target and is not exact lies below it by the tolerance. -/
theorem isUnder_iff :
    rules.isUnder result target = true ↔ result ≤ target - rules.exactTolerance := by
  rw [isUnder, Bool.and_eq_true, decide_eq_true_iff, Bool.not_eq_true', ← Bool.not_eq_true,
    isExact_iff, not_lt, le_abs]
  constructor
  · rintro ⟨hunder, hmiss | hmiss⟩ <;> linarith
  · intro h
    exact ⟨by linarith, .inr (by linarith)⟩

/-- **A condition blocks** what the rule book lets it block. -/
theorem gate?_eq_some_iff {condition : Condition} {reason : BlockReason Rat} :
    rules.gate? result target condition = some reason
      ↔ rules.Blocks result target condition reason := by
  have hmiss : rules.isExact result target = false
      ↔ rules.exactTolerance ≤ |result - target| := by
    rw [← Bool.not_eq_true, isExact_iff, not_lt]
  have hdistance : distance result target = |result - target| := Exact.abs_eq _
  constructor
  · intro h
    unfold gate? at h
    split at h
    · split at h
      · next hover =>
        obtain rfl := Option.some.inj h
        exact .noOverkill ((isOver_iff htolerance).mp hover)
      · cases h
    · split at h
      · cases h
      · next hover =>
        obtain rfl := Option.some.inj h
        exact .mustOverkill (not_le.mp fun hle => hover ((isOver_iff htolerance).mpr hle))
    · split at h
      · next hfar =>
        rw [Bool.and_eq_true, decide_eq_true_iff, Bool.not_eq_true', hdistance] at hfar
        obtain rfl := Option.some.inj h
        exact .tightWindow hfar.1 (hmiss.mp hfar.2)
      · cases h
    · cases h
  · intro h
    unfold gate?
    cases h with
    | noOverkill hover => exact if_pos ((isOver_iff htolerance).mpr hover)
    | mustOverkill hover =>
      exact if_neg fun h => absurd ((isOver_iff htolerance).mp h) (not_le.mpr hover)
    | tightWindow hwindow hfar =>
      refine if_pos ?_
      rw [hmiss.mpr hfar, hdistance, decide_eq_true hwindow]
      rfl

/-- A result that conditions block is judged by the book. -/
theorem byTheBook_blocked {reason : BlockReason Rat}
    (hfirst : conditions.findSome? (rules.gate? result target) = some reason) :
    rules.ByTheBook conditions result target (.blocked reason) := by
  obtain ⟨before, c, after, hsplit, hgate, hfree⟩ := List.findSome?_eq_some_iff.mp hfirst
  have hblocks := (gate?_eq_some_iff htolerance).mp hgate
  refine ⟨iff_of_true (Option.some_ne_none reason) (exists_blocks_iff.mp ?_), ?_,
    nofun, nofun, nofun, nofun, iff_of_true rfl ?_, rfl⟩
  · exact ⟨c, hsplit ▸ List.mem_append_right _ List.mem_cons_self, reason, hblocks⟩
  · intro reason' hreason
    obtain rfl := Option.some.inj hreason
    refine ⟨before, c, after, hsplit, hblocks, fun b hb r hr => ?_⟩
    rw [← gate?_eq_some_iff htolerance, hfree b hb] at hr
    cases hr
  · rintro (h | ⟨h, -⟩) <;> cases h

variable (result target) in
/-- **Where a result lands that nothing blocks.** -/
theorem land_cases (conditions : List Condition) :
    (|result - target| < rules.exactTolerance
        ∧ rules.land conditions result target = ⟨target, false, .exact⟩)
      ∨ (target + rules.exactTolerance ≤ result
        ∧ rules.land conditions result target
          = ⟨target, !conditions.contains .gentle, .overkill⟩)
      ∨ (result ≤ target - rules.exactTolerance ∧ target - result ≤ rules.nearMissThreshold
        ∧ rules.land conditions result target = ⟨target, true, .nearMiss⟩)
      ∨ (result ≤ target - rules.exactTolerance ∧ rules.nearMissThreshold < target - result
        ∧ rules.land conditions result target = ⟨wound conditions result, true, .underkill⟩) := by
  have hdistance : distance result target = |result - target| := Exact.abs_eq _
  unfold land
  split
  · next hexact => exact .inl ⟨isExact_iff.mp hexact, rfl⟩
  · next hexact =>
    rw [isExact_iff, not_lt] at hexact
    split
    · next hover => exact .inr (.inl ⟨(isOver_iff htolerance).mp hover, rfl⟩)
    · next hover =>
      rw [isOver_iff htolerance, not_le] at hover
      have hunder : result ≤ target - rules.exactTolerance := by
        rcases le_abs.mp hexact with h | h <;> linarith
      have hshort : |result - target| = target - result := by
        rw [abs_sub_comm, abs_of_nonneg (by linarith)]
      rw [(isUnder_iff htolerance).mpr hunder, Bool.true_and, hdistance, hshort]
      split
      · next hnear => exact .inr (.inr (.inl ⟨hunder, of_decide_eq_true hnear, rfl⟩))
      · next hfar =>
        rw [decide_eq_true_iff, not_le] at hfar
        exact .inr (.inr (.inr ⟨hunder, hfar, rfl⟩))

/-- A result that no condition blocks is judged by the book. -/
theorem byTheBook_land (hfree : conditions.findSome? (rules.gate? result target) = none) :
    rules.ByTheBook conditions result target (rules.land conditions result target) := by
  have hclear : ¬∃ c ∈ conditions, ∃ reason, rules.Blocks result target c reason := by
    rintro ⟨c, hc, reason, hblocks⟩
    rw [← gate?_eq_some_iff htolerance, List.findSome?_eq_none_iff.mp hfree c hc] at hblocks
    cases hblocks
  rw [exists_blocks_iff] at hclear
  have hblocked : (none : Option (BlockReason Rat)) ≠ none ↔ _ :=
    iff_of_false (fun h => h rfl) hclear
  -- the three sides of the target lie apart
  have hnotover : |result - target| < rules.exactTolerance
      → ¬target + rules.exactTolerance ≤ result := fun hexact hover => by
    linarith [(abs_lt.mp hexact).2]
  have hnotunder : |result - target| < rules.exactTolerance
      → ¬result ≤ target - rules.exactTolerance := fun hexact hunder => by
    linarith [(abs_lt.mp hexact).1]
  have hsides : target + rules.exactTolerance ≤ result
      → ¬result ≤ target - rules.exactTolerance := fun hover hunder => by linarith
  rcases land_cases result target htolerance conditions with
    ⟨hexact, hland⟩ | ⟨hover, hland⟩ | ⟨hunder, hshort, hland⟩ | ⟨hunder, hfar, hland⟩
  · rw [hland]
    exact ⟨hblocked, nofun, fun _ => iff_of_true rfl hexact,
      fun _ => iff_of_false nofun (hnotover hexact),
      fun _ => iff_of_false nofun fun h => hnotunder hexact h.1,
      fun _ => iff_of_false nofun fun h => h.1 hexact,
      iff_of_false nofun fun h => h (.inl rfl), rfl⟩
  · rw [hland]
    refine ⟨hblocked, nofun, fun _ => iff_of_false nofun fun h => hnotover h hover,
      fun _ => iff_of_true rfl hover, fun _ => iff_of_false nofun fun h => hsides hover h.1,
      fun _ => iff_of_false nofun fun h => h.2.1 hover, ?_, rfl⟩
    show (!conditions.contains .gentle) = true ↔ _
    rw [Bool.not_eq_true', ← Bool.not_eq_true, List.contains_iff_mem]
    refine not_congr ⟨fun hgentle => .inr ⟨rfl, hgentle⟩, ?_⟩
    rintro (h | ⟨-, hgentle⟩)
    · cases h
    · exact hgentle
  · rw [hland]
    refine ⟨hblocked, nofun, fun _ => iff_of_false nofun fun h => hnotunder h hunder,
      fun _ => iff_of_false nofun fun h => hsides h hunder,
      fun _ => iff_of_true rfl ⟨hunder, hshort⟩,
      fun _ => iff_of_false nofun fun h => h.2.2 ⟨hunder, hshort⟩, iff_of_true rfl ?_, rfl⟩
    rintro (h | ⟨h, -⟩) <;> cases h
  · have hmiss : ¬|result - target| < rules.exactTolerance := fun h => hnotunder h hunder
    have hbefore : ¬target + rules.exactTolerance ≤ result := fun h => hsides h hunder
    have hnot : ¬(result ≤ target - rules.exactTolerance
        ∧ target - result ≤ rules.nearMissThreshold) := fun h => absurd h.2 (not_le.mpr hfar)
    rw [hland]
    refine ⟨hblocked, nofun, fun _ => iff_of_false nofun hmiss,
      fun _ => iff_of_false nofun hbefore, fun _ => iff_of_false nofun hnot,
      fun _ => iff_of_true rfl ⟨hmiss, hbefore, hnot⟩, iff_of_true rfl ?_, rfl⟩
    rintro (h | ⟨h, -⟩) <;> cases h

end

end

/-- **Results are judged by the book.** -/
theorem byTheBook_judge (htolerance : 0 < rules.exactTolerance) :
    rules.ByTheBook conditions result target (rules.judge conditions result target) := by
  unfold judge
  cases hfirst : conditions.findSome? (rules.gate? result target) with
  | some reason => exact byTheBook_blocked htolerance hfirst
  | none => exact byTheBook_land htolerance hfirst

/-- **A result is judged by the book, and the order of the conditions hardly matters.** Whatever
the conditions are, in whatever order and however often, the result and the target, each result
lands where the book says, as long as the tolerance is positive. The conditions in another order
deal the same damage, provoke the same answer, and block the same results. If they are drawn for
an encounter, they even give the same reasons. -/
theorem judge_by_the_book (htolerance : 0 < rules.exactTolerance) :
    rules.ByTheBook conditions result target (rules.judge conditions result target)
      ∧ (∀ conditions', conditions'.Perm conditions →
        (rules.judge conditions' result target).dealt
            = (rules.judge conditions result target).dealt
          ∧ (rules.judge conditions' result target).retaliate
            = (rules.judge conditions result target).retaliate
          ∧ ((rules.judge conditions' result target).blockReason? = none
            ↔ (rules.judge conditions result target).blockReason? = none))
      ∧ ∀ {σ α : Type} [Scalar α] [Source σ α] (floor : Nat) (hp : α) (hand : List Operator)
          (modifiers : Modifiers α) (s : σ) (conditions' : List Condition),
        conditions'.Perm (Condition.pick floor hp hand modifiers s).1 →
          rules.judge conditions' result target
            = rules.judge (Condition.pick floor hp hand modifiers s).1 result target := by
  refine ⟨rules.byTheBook_judge conditions result target htolerance, fun conditions' hperm => ?_,
    fun floor hp hand modifiers s conditions' hperm => ?_⟩
  · rcases rules.judge_perm result target hperm with hsame | ⟨reason, reason', hjudge', hjudge⟩
    · rw [hsame]
      exact ⟨rfl, rfl, Iff.rfl⟩
    · rw [hjudge, hjudge']
      exact ⟨rfl, rfl, iff_of_false nofun nofun⟩
  · refine rules.judge_perm_of_apart result target (fun a ha b hb hta htb => ?_) hperm
    by_contra hne
    exact Condition.not_clash_of_mem_pick ha hb hne
      (.inr ⟨hta.trans htb.symm, by rw [hta]; decide⟩)

end

/-- The rules of a game with the standard amounts. -/
def standardRules : DamageRules Rat := .inForce .standard (.forLevel 0 .standard)

/-- Forty-four misses forty by more than the window allows, and forty must not be exceeded: of two
conditions that block, the first one is named, and it is another one in the other order. -/
theorem judge_by_the_book_twice_blocked :
    0 < standardRules.exactTolerance
      ∧ standardRules.ByTheBook [.gentle, .tightWindow, .noOverkill] 44 40
        (.blocked .tightWindow)
      ∧ standardRules.ByTheBook [.noOverkill, .gentle, .tightWindow] 44 40
        (.blocked .noOverkill) := by
  have htolerance : 0 < standardRules.exactTolerance := by decide +kernel
  have hwindow : standardRules.judge [.gentle, .tightWindow, .noOverkill] 44 40
      = .blocked .tightWindow := by decide +kernel
  have hover : standardRules.judge [.noOverkill, .gentle, .tightWindow] 44 40
      = .blocked .noOverkill := by decide +kernel
  exact ⟨htolerance, hwindow ▸ (judge_by_the_book standardRules _ 44 40 htolerance).1,
    hover ▸ (judge_by_the_book standardRules _ 44 40 htolerance).1⟩

end DamageRules

end Arithmancy
