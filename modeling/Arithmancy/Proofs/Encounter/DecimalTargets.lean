import Mathlib
import Arithmancy.Monster.Bestiary
import Arithmancy.Proofs.Encounter.Deeds
import Arithmancy.Proofs.Encounter.Target

/-!
# Targets with a decimal

One of the conditions promises a target with a decimal. The fraction is not part of how a target
is drawn: it is added once, when the encounter starts. So it lasts as long as nothing writes the
hit points of the monster, and before the first turn is resolved only one deed does: drawing the
target of a boss anew, which gives the boss an integer.

The main statement, `Scene.decimal_kept_unless_redrawn`, says that this is the only way in which
the decimal is lost, and that it always is lost so. It rests on what the monster can be while no
turn was resolved (`Scene.awaits_after`), on when the target was drawn anew
(`Scene.bossRerollUsed_after_iff`), and on quarters being exact in floating-point numbers
(`Binary64.value?_floor_add`).
-/

namespace Arithmancy

open Binary64

/-! ## Quarters -/

/-- An integer and some quarters, fewer than four and at least one, have these for a fraction. -/
theorem fract_add_quarters (n : ℕ) {k : ℕ} (hpos : 0 < k) (hlt : k < 4) :
    Int.fract ((n : ℚ) + (k : ℚ) / 4) ∈ ({1 / 4, 1 / 2, 3 / 4} : Set ℚ) := by
  rw [Int.fract_natCast_add]
  interval_cases k <;> norm_num [Int.fract_eq_self.mpr]

theorem fract_natCast_notMem (n : ℕ) :
    Int.fract (n : ℚ) ∉ ({1 / 4, 1 / 2, 3 / 4} : Set ℚ) := by
  rw [Int.fract_natCast]
  norm_num

/-- **The target of an encounter with decimals** starts with one. -/
theorem Session.fract_of_start {run : Run Float} {bestiary : Bestiary} {challenge : Challenge}
    {s : Session Float} (h : start run bestiary challenge = .ok s)
    (hdecimal : .decimalTarget ∈ s.conditions) :
    ∃ v, value? s.monster.hp = some v ∧ Int.fract v ∈ ({1 / 4, 1 / 2, 3 / 4} : Set ℚ) := by
  obtain ⟨template, g, fraction, hmem, hhp⟩ := exists_fraction_of_start h hdecimal
  obtain ⟨k, hpos, hlt, hvalue⟩ := value?_floor_add
    (Monster.drawnHp_lt g template run.progress.floor run.progress.modifiers) hmem
  exact ⟨_, hhp ▸ hvalue, fract_add_quarters _ hpos hlt⟩

/-! ## Before the first turn is resolved -/

section

variable {α : Type} [Scalar α]

/-- **What the monster of an encounter can be** before the first turn is resolved: the one that
was met at the start, or, if that is a boss, the same with a target that was drawn anew. -/
inductive Session.Awaits (first : Monster α) (s : Session α) : Prop where
  /-- Nothing has happened to the monster. -/
  | met (hmonster : s.monster = first) (hused : s.bossRerollUsed = false)
  /-- Its target was drawn anew. -/
  | redrawn {floor : Nat} {modifiers : Modifiers α} {generator : Generator α}
      (hboss : first.isBoss = true)
      (hmonster : s.monster = (first.rerollTarget floor modifiers generator).1)
      (hused : s.bossRerollUsed = true)

/-- What the monster can be depends on nothing but the monster and on whether its target was
drawn anew. -/
theorem Session.Awaits.of_eq {first : Monster α} {s s' : Session α} (h : s.Awaits first)
    (hmonster : s'.monster = s.monster) (hused : s'.bossRerollUsed = s.bossRerollUsed) :
    s'.Awaits first := by
  cases h with
  | met hmet hunused => exact .met (hmonster.trans hmet) (hused.trans hunused)
  | redrawn hboss hdrawn hagain =>
    exact .redrawn hboss (hmonster.trans hdrawn) (hused.trans hagain)

namespace Scene

variable {balance : Balance α} {c c' : Scene α} {d : Deed α}

/-- **A deed that resolves no turn** leaves the conditions, and the monster as it can be. -/
theorem awaits_of_perform? {first : Monster α} {conditions : List Condition}
    (h : c.session.lastResolution = none →
      c.session.conditions = conditions ∧ c.session.Awaits first)
    (hd : c.perform? balance d = some c') :
    c'.session.lastResolution = none →
      c'.session.conditions = conditions ∧ c'.session.Awaits first := by
  intro hnone
  cases becomes_of_perform? hd with
  | edit _ _ => exact (h hnone).imp_right fun hawaits => hawaits.of_eq rfl rfl
  | reroll _ => exact (h hnone).imp_right fun hawaits => hawaits.of_eq rfl rfl
  | acquire _ => exact h hnone
  | turn _ =>
    rw [(c.session.settles_resolve c.run balance _).report] at hnone
    cases hnone
  | target _ =>
    obtain ⟨s', hs, -⟩ := Option.map_eq_some_iff.mp hd
    obtain ⟨-, hboss, hunused, -⟩ := Session.exists_of_rerollBossTarget? hs
    obtain ⟨hconditions, hawaits⟩ := h hnone
    refine ⟨hconditions, ?_⟩
    cases hawaits with
    | met hmonster _ =>
      subst hmonster
      exact .redrawn hboss rfl rfl
    | redrawn _ _ hused =>
      -- a target that was drawn anew is not drawn again
      rw [hunused] at hused
      cases hused

/-- **While no turn was resolved** the conditions are those of the start, and the monster is what
it can be then. -/
theorem awaits_after (hunused : c.session.bossRerollUsed = false) (balance : Balance α)
    (deeds : List (Deed α)) (hnone : (c.after balance deeds).session.lastResolution = none) :
    (c.after balance deeds).session.conditions = c.session.conditions
      ∧ (c.after balance deeds).session.Awaits c.session.monster :=
  after_induction (P := fun e => e.session.lastResolution = none →
      e.session.conditions = c.session.conditions ∧ e.session.Awaits c.session.monster)
    (fun _ _ _ h hd => awaits_of_perform? h hd) (fun _ => ⟨rfl, .met rfl hunused⟩) deeds hnone

/-! ## Targets that are drawn anew -/

/-- **Whether deeds draw the target anew**: one of them is to do so, and is not refused. -/
def Redraws (balance : Balance α) (c : Scene α) (deeds : List (Deed α)) : Prop :=
  ∃ ds, ds ++ [.rerollBossTarget] <+: deeds
    ∧ (c.after balance ds).perform? balance .rerollBossTarget ≠ none

theorem not_redraws_of_notMem {deeds : List (Deed α)} (h : .rerollBossTarget ∉ deeds) :
    ¬Redraws balance c deeds := by
  rintro ⟨ds, hpre, -⟩
  exact h (hpre.subset (List.mem_append_right ds (List.mem_singleton_self _)))

theorem redraws_concat_iff {deeds : List (Deed α)} :
    Redraws balance c (deeds ++ [d]) ↔ Redraws balance c deeds
      ∨ d = .rerollBossTarget ∧ (c.after balance deeds).perform? balance d ≠ none := by
  unfold Redraws
  constructor
  · rintro ⟨ds, hpre, hdone⟩
    rcases List.prefix_concat_iff.mp hpre with hlast | hbefore
    · obtain ⟨rfl, hd⟩ := List.append_inj' hlast rfl
      obtain rfl := List.singleton_inj.mp hd
      exact .inr ⟨rfl, hdone⟩
    · exact .inl ⟨ds, hbefore, hdone⟩
  · rintro (⟨ds, hpre, hdone⟩ | ⟨rfl, hdone⟩)
    · exact ⟨ds, hpre.trans (List.prefix_append _ _), hdone⟩
    · exact ⟨deeds, List.prefix_rfl, hdone⟩

/-- **A deed that is not refused** marks the target as drawn anew if that is what it does, and
otherwise leaves the mark. -/
theorem bossRerollUsed_of_becomes (h : c.Becomes balance d c') :
    c'.session.bossRerollUsed = true
      ↔ c.session.bossRerollUsed = true ∨ d = .rerollBossTarget := by
  cases h with
  | edit hedit _ =>
    refine ⟨.inl, fun h => h.resolve_right ?_⟩
    rintro rfl
    cases hedit
  | reroll _ => exact (or_iff_left nofun).symm
  | acquire _ => exact (or_iff_left nofun).symm
  | target _ => exact iff_of_true rfl (.inr rfl)
  | turn _ =>
    rw [or_iff_left nofun]
    obtain ⟨lines, hsession⟩ := c.session.session_resolve c.run balance _
    rw [hsession]
    dsimp only
    split <;> rfl

theorem bossRerollUsed_after_iff (hunused : c.session.bossRerollUsed = false)
    (balance : Balance α) (deeds : List (Deed α)) :
    (c.after balance deeds).session.bossRerollUsed = true ↔ Redraws balance c deeds := by
  induction deeds using List.reverseRecOn with
  | nil =>
    exact iff_of_false (Bool.eq_false_iff.mp hunused) (not_redraws_of_notMem List.not_mem_nil)
  | append_singleton ds d ih =>
    rw [after_concat, redraws_concat_iff, perform, ← ih]
    cases hd : (c.after balance ds).perform? balance d with
    | none => simp
    | some c' => simpa using bossRerollUsed_of_becomes (becomes_of_perform? hd)

end Scene

end

/-! ## Decimals -/

namespace Scene

variable {run : Run Float} {bestiary : Bestiary} {challenge : Challenge} {s e : Session Float}

/-- **A decimal is kept unless the target is drawn anew.** Start any encounter and do anything in
it. As long as no turn was resolved, the monster of an encounter with a decimal target has all
its hit points, and they are a finite number whose fraction is a quarter, a half or three
quarters, exactly if no target was drawn anew. If one was, the monster is a boss, and its hit
points are an integer, at least five. -/
theorem decimal_kept_unless_redrawn (hstart : Session.start run bestiary challenge = .ok s)
    (balance : Balance Float) (deeds : List (Deed Float))
    (he : (after balance ⟨s, run⟩ deeds).session = e) (hdecimal : .decimalTarget ∈ e.conditions)
    (hunresolved : e.lastResolution = none) :
    e.monster.maxHp = e.monster.hp
      ∧ ∃ v, value? e.monster.hp = some v
        ∧ (Int.fract v ∈ ({1 / 4, 1 / 2, 3 / 4} : Set ℚ) ↔ ¬Redraws balance ⟨s, run⟩ deeds)
        ∧ (Redraws balance ⟨s, run⟩ deeds →
          e.monster.isBoss = true ∧ ∃ n : ℕ, 5 ≤ n ∧ v = n) := by
  subst he
  have hunused : s.bossRerollUsed = false := by
    obtain ⟨_, _, _, -, -, rfl⟩ := Session.exists_of_start hstart
    rfl
  have hredraws := bossRerollUsed_after_iff (c := ⟨s, run⟩) hunused balance deeds
  obtain ⟨hconditions, hawaits⟩ := awaits_after (c := ⟨s, run⟩) hunused balance deeds hunresolved
  rw [hconditions] at hdecimal
  cases hawaits with
  | met hmonster hkept =>
    have hnever : ¬Redraws balance ⟨s, run⟩ deeds := by
      rw [← hredraws, hkept]
      exact Bool.false_ne_true
    obtain ⟨v, hv, hfract⟩ := Session.fract_of_start hstart hdecimal
    rw [hmonster]
    exact ⟨Session.maxHp_of_start hstart, v, hv, iff_of_true hfract hnever,
      fun h => absurd h hnever⟩
  | @redrawn floor modifiers g hboss hmonster hused =>
    have hdone := hredraws.mp hused
    obtain ⟨n, hn, hv⟩ := Monster.exists_natCast_rerollTarget g s.monster floor modifiers
    rw [hmonster]
    exact ⟨rfl, n, hv, iff_of_false (fract_natCast_notMem n) (not_not_intro hdone),
      fun _ => ⟨hboss, n, hn, rfl⟩⟩

/-- A run on the fifth floor, with one die and a card that divides. -/
def dividingRun : Run Float where
  player := .fresh 80 50 1 [.ofType .d6] [.divide]
  progress := { Progress.start 7 (.forLevel 0 .standard) with floor := 5 }

/-- A die is held and placed; half a quotient is submitted, which is refused; and the die is
released and rerolled. -/
def fumbling : List (Deed Float) :=
  [.toggleHold ⟨0⟩, .placeDie ⟨0⟩, .placeOperator 0, .submit, .toggleHold ⟨0⟩, .reroll]

/-- A boss keeps its decimal while the player fumbles. -/
theorem decimal_kept_unless_redrawn_fumbling :
    ∃ s e, Session.start dividingRun .builtIn (.monster "prime_minister") = .ok s
      ∧ (after .standard ⟨s, dividingRun⟩ fumbling).session = e
      ∧ .decimalTarget ∈ e.conditions ∧ e.lastResolution = none
      ∧ e.monster.maxHp = e.monster.hp
      ∧ ∃ v, value? e.monster.hp = some v ∧ Int.fract v ∈ ({1 / 4, 1 / 2, 3 / 4} : Set ℚ) := by
  obtain ⟨s, hstart, hdecimal, hunresolved⟩ :
      ∃ s, Session.start dividingRun .builtIn (.monster "prime_minister") = .ok s
        ∧ .decimalTarget ∈ (after .standard ⟨s, dividingRun⟩ fumbling).session.conditions
        ∧ (after .standard ⟨s, dividingRun⟩ fumbling).session.lastResolution = none :=
    ⟨_, rfl, by decide +kernel⟩
  obtain ⟨hfull, v, hv, hfract, -⟩ :=
    decimal_kept_unless_redrawn hstart .standard fumbling rfl hdecimal hunresolved
  exact ⟨s, _, hstart, rfl, hdecimal, hunresolved, hfull, v, hv,
    hfract.mpr (not_redraws_of_notMem (by decide))⟩

/-- **A decimal is lost** when the target of a boss is drawn anew, although the encounter still
promises one. -/
theorem decimal_lost_when_redrawn :
    ∃ s e, Session.start dividingRun .builtIn (.monster "prime_minister") = .ok s
      ∧ (after .standard ⟨s, dividingRun⟩ [.rerollBossTarget]).session = e
      ∧ .decimalTarget ∈ e.conditions ∧ e.lastResolution = none
      ∧ value? e.monster.hp = some 129
      ∧ Int.fract (129 : ℚ) ∉ ({1 / 4, 1 / 2, 3 / 4} : Set ℚ) := by
  obtain ⟨s, hstart, hdecimal, hunresolved, hhp⟩ :
      ∃ s, Session.start dividingRun .builtIn (.monster "prime_minister") = .ok s
        ∧ .decimalTarget
          ∈ (after .standard ⟨s, dividingRun⟩ [.rerollBossTarget]).session.conditions
        ∧ (after .standard ⟨s, dividingRun⟩ [.rerollBossTarget]).session.lastResolution = none
        ∧ decode? (after .standard ⟨s, dividingRun⟩ [.rerollBossTarget]).session.monster.hp
          = some ⟨false, 129 * 2 ^ 45, -45⟩ :=
    ⟨_, rfl, by decide +kernel⟩
  refine ⟨s, _, hstart, rfl, hdecimal, hunresolved, ?_, fract_natCast_notMem 129⟩
  rw [value?_of_decode? hhp]
  norm_num [Finite.value]

end Scene

end Arithmancy
