import Arithmancy.Proofs.Chance.Draws
import Arithmancy.Proofs.Encounter.Tray

/-!
# The monster that is met

The number to hit is drawn. It is grown from a range, biased in the depths, and never falls
below five; under one condition its integer part is then given a fraction. At the start of an
encounter it is also the most hit points that the monster can have (`Session.maxHp_of_start`,
`Session.hp_of_start`), and so it is when the target of a boss is drawn anew.
-/

namespace Arithmancy

namespace Monster

variable {σ α : Type} [Scalar α] [Source σ α]

theorem le_scaledHp (range : Nat × Nat) (floor : Nat) (modifiers : Modifiers α) (s : σ) :
    Balance.minMonsterHp ≤ (scaledHp range floor modifiers s).1 := Nat.le_max_right _ _

theorem scaledHp_le (hcounter : ∀ x : α, Scalar.toNat maxCount32 x ≤ maxCount32)
    (range : Nat × Nat) (floor : Nat) (modifiers : Modifiers α) (s : σ) :
    (scaledHp range floor modifiers s).1 ≤ maxCount32 :=
  Nat.max_le.mpr ⟨hcounter _, by decide⟩

/-- **The hit points drawn for a monster** on a floor. -/
def drawnHp (template : Template) (floor : Nat) (modifiers : Modifiers α) (s : σ) : Nat × σ :=
  let (hp, s) := scaledHp template.hpRange floor modifiers s
  if 3 ≤ floor then harderTarget floor hp s else (hp, s)

theorem le_drawnHp (template : Template) (floor : Nat) (modifiers : Modifiers α) (s : σ) :
    Balance.minMonsterHp ≤ (drawnHp template floor modifiers s).1 := by
  unfold drawnHp
  dsimp only
  split
  · exact Nat.le_max_right _ _
  · exact le_scaledHp _ _ _ _

/-! ## Targets are small -/

theorem nudgeToPrime_le (hp : Nat) : nudgeToPrime hp ≤ hp + 5 := by
  unfold nudgeToPrime
  dsimp only
  split
  · next h =>
    rw [Bool.and_eq_true, decide_eq_true_iff, decide_eq_true_iff] at h
    omega
  · omega

theorem biasToPrime_le (floor hp : Nat) (s : σ) : (biasToPrime floor hp s).1 ≤ hp + 5 := by
  unfold biasToPrime
  dsimp only
  split
  · exact nudgeToPrime_le hp
  · omega

theorem le_of_mem_primesNear {hp p : Nat} (h : p ∈ primesNear α hp) : p ≤ 197 :=
  (show ∀ p ∈ bigPrimes, p ≤ 197 by decide) p (List.mem_filter.mp h).1

theorem biasToBigPrime_le (floor hp : Nat) (s : σ) :
    (biasToBigPrime floor hp s).1 ≤ max hp 197 := by
  unfold biasToBigPrime
  split
  · exact Nat.le_max_left hp 197
  · dsimp only
    split
    · split
      · exact Nat.le_max_left hp 197
      · dsimp only
        generalize (Source.nextIndex (primesNear α hp).length (Source.draw s).2).1 = i
        cases hdrawn : (primesNear α hp)[i]? with
        | none => exact Nat.le_max_left hp 197
        | some p =>
          exact Nat.le_trans (le_of_mem_primesNear (List.mem_of_getElem? hdrawn))
            (Nat.le_max_right hp 197)
    · exact Nat.le_max_left hp 197

section

variable (hdrawn : ∀ s : σ, (Source.nextInt 1 3 s).1 ≤ 3)

include hdrawn

theorem biasFromHandy_le (floor hp : Nat) (s : σ) : (biasFromHandy floor hp s).1 ≤ hp + 3 := by
  unfold biasFromHandy
  dsimp only
  split
  · have hle := hdrawn (Source.draw s).2
    refine Nat.le_trans (Nat.mod_le _ _) ?_
    show hp + (Source.nextInt 1 3 (Source.draw s).2).1.toNat ≤ hp + 3
    omega
  · exact Nat.le_add_right hp 3

/-- A bias adds no more than eight, or it leads to a prime below two hundred. -/
theorem harderTarget_le (floor hp : Nat) (s : σ) :
    (harderTarget floor hp s).1 ≤ max (hp + 8) 197 := by
  have hprime := biasToPrime_le floor hp s
  have hhandy := biasFromHandy_le hdrawn floor (biasToPrime floor hp s).1
    (biasToPrime floor hp s).2
  have hbig := biasToBigPrime_le floor
    (biasFromHandy floor (biasToPrime floor hp s).1 (biasToPrime floor hp s).2).1
    (biasFromHandy floor (biasToPrime floor hp s).1 (biasToPrime floor hp s).2).2
  have hleast : Balance.minMonsterHp = 5 := rfl
  unfold harderTarget
  dsimp only
  omega

/-- **Targets are small**, if counters stop where they should and draws stay in their range. -/
theorem drawnHp_le (hcounter : ∀ x : α, Scalar.toNat maxCount32 x ≤ maxCount32)
    (template : Template) (floor : Nat) (modifiers : Modifiers α) (s : σ) :
    (drawnHp template floor modifiers s).1 ≤ maxCount32 + 8 := by
  have hscaled := scaledHp_le hcounter template.hpRange floor modifiers s
  have hmax : maxCount32 = 4294967295 := rfl
  unfold drawnHp
  dsimp only
  split
  · have hharder := harderTarget_le hdrawn floor (scaledHp template.hpRange floor modifiers s).1
      (scaledHp template.hpRange floor modifiers s).2
    omega
  · omega

end

/-- A target that is drawn anew is not biased. -/
theorem hp_rerollTarget (m : Monster α) (floor : Nat) (modifiers : Modifiers α) (s : σ) :
    (m.rerollTarget floor modifiers s).1.hp
      = Scalar.ofNat (scaledHp m.hpRange floor modifiers s).1 := rfl

end Monster

namespace Session

variable {α : Type} [Scalar α]

/-- **A decimal target** is the integer part of a target with a fraction. -/
theorem withFraction_cases {σ : Type} [Source σ α] (m : Monster α) (conditions : List Condition)
    (s : σ) :
    (withFraction m conditions s).1 = m
      ∨ ∃ fraction ∈ (decimalFractions : List α),
        (withFraction m conditions s).1 = m.withTarget (Scalar.floor m.hp + fraction) := by
  unfold withFraction
  split
  · split
    · next fraction s' hpick =>
      refine .inr ⟨fraction, ?_, rfl⟩
      have hdrawn : (Source.pick (decimalFractions : List α) s).1 = some fraction := by rw [hpick]
      exact List.mem_of_getElem? hdrawn
    · exact .inl rfl
  · exact .inl rfl

variable {run : Run α} {bestiary : Bestiary} {challenge : Challenge} {s : Session α}

theorem exists_monster_of_start (h : start run bestiary challenge = .ok s) :
    ∃ (template : Template) (generator generator' : Generator α),
      s.monster = (withFraction (Monster.spawn template run.progress.floor
        run.progress.modifiers generator).1 s.conditions generator').1 := by
  obtain ⟨_, template, generator, -, -, rfl⟩ := exists_of_start h
  exact ⟨template, generator, _, rfl⟩

/-- **A decimal target** is given a fraction at the start of the encounter. -/
theorem exists_fraction_of_start (h : start run bestiary challenge = .ok s)
    (hdecimal : .decimalTarget ∈ s.conditions) :
    ∃ (template : Template) (g : Generator α), ∃ fraction ∈ (decimalFractions : List α),
      s.monster.hp = Scalar.floor (Scalar.ofNat
        (Monster.drawnHp template run.progress.floor run.progress.modifiers g).1) + fraction := by
  obtain ⟨template, g, g', hmonster⟩ := exists_monster_of_start h
  obtain ⟨fraction, hmem, g'', hpick⟩ :=
    Source.exists_pick (show (decimalFractions : List α) ≠ [] from List.cons_ne_nil _ _) g'
  refine ⟨template, g, fraction, hmem, ?_⟩
  rw [hmonster, withFraction, if_pos (List.contains_iff_mem.mpr hdecimal), hpick]
  rfl

/-- At the start of an encounter the monster has all its hit points. -/
theorem maxHp_of_start (h : start run bestiary challenge = .ok s) :
    s.monster.maxHp = s.monster.hp := by
  obtain ⟨template, g, g', hmonster⟩ := exists_monster_of_start h
  rw [hmonster]
  rcases withFraction_cases (Monster.spawn template run.progress.floor run.progress.modifiers g).1
    s.conditions g' with hsame | ⟨fraction, -, hfraction⟩
  · rw [hsame]
    rfl
  · rw [hfraction]
    rfl

/-- **The number to hit** at the start of an encounter is drawn, and may get a fraction. -/
theorem hp_of_start (h : start run bestiary challenge = .ok s) :
    ∃ (template : Template) (g : Generator α) (n : Nat),
      n = (Monster.drawnHp template run.progress.floor run.progress.modifiers g).1
        ∧ (s.monster.hp = Scalar.ofNat n ∨ ∃ fraction ∈ (decimalFractions : List α),
          s.monster.hp = Scalar.floor (Scalar.ofNat n) + fraction) := by
  obtain ⟨template, g, g', hmonster⟩ := exists_monster_of_start h
  refine ⟨template, g, _, rfl, ?_⟩
  rw [hmonster]
  rcases withFraction_cases (Monster.spawn template run.progress.floor run.progress.modifiers g).1
    s.conditions g' with hsame | ⟨fraction, hmem, hfraction⟩
  · rw [hsame]
    exact .inl rfl
  · rw [hfraction]
    exact .inr ⟨fraction, hmem, rfl⟩

end Session

end Arithmancy
