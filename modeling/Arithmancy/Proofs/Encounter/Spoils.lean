import Arithmancy.Proofs.Encounter.Survival

/-!
# The spoils of a turn

What a turn leaves to the run can be read off its report. The gold that is reported is
earned, as far as counters reach (`Session.gold_resolve`); the relic that is reported as the
rescue is lost (`Session.relics_resolve`); and a hit that is lethal, the exact one among
them, is reported as the death of the monster (`Session.monsterDead_of_isLethal`).
-/

namespace Arithmancy

/-! ## What is left of the monster -/

namespace Judgement

variable {α : Type} [Scalar α]

/-- **What is left of the monster**: a result that falls short wounds it, and any other leaves
it either nothing or everything. -/
theorem remainder_cases (j : Judgement α) :
    j.outcome.isUnderkill = true
        ∧ j.remainder = Scalar.ceil (j.target - Scalar.positivePart j.outcome.dealt)
      ∨ j.outcome.isUnderkill = false ∧ (j.remainder = 0 ∨ j.remainder = j.target) := by
  unfold remainder Outcome.isUnderkill
  cases j.outcome.kind with
  | underkill => exact .inl ⟨rfl, rfl⟩
  | exact | overkill | nearMiss => exact .inr ⟨rfl, .inl rfl⟩
  | blocked _ => exact .inr ⟨rfl, .inr rfl⟩

/-- A lethal result leaves nothing. -/
theorem remainder_of_isLethal {j : Judgement α} (h : j.outcome.isLethal = true) :
    j.remainder = 0 := by
  unfold remainder
  unfold Outcome.isLethal at h
  cases hkind : j.outcome.kind with
  | exact | overkill | nearMiss => rfl
  | underkill | blocked _ =>
    rw [hkind] at h
    cases h

end Judgement

/-! ## What the run gets -/

namespace Session

variable {α : Type} [Scalar α] (s : Session α) (run : Run α) (balance : Balance α) (raw : α)

/-- **The gold that is reported** is earned. -/
theorem gold_resolve :
    (s.resolve run balance raw).run.player.gold
      = min (run.player.gold + (s.resolve run balance raw).resolution.goldEarned)
        maxCount32 := by
  rw [player_resolve, Player.gold_onCombatEnd]
  show min ((s.survivorOf run balance raw).gold + _) maxCount32 = _
  rw [survivorOf, Player.gold_suffer, Player.gold_affected]
  rfl

/-- **The relic that is reported as the rescue** is lost. -/
theorem relics_resolve :
    (s.resolve run balance raw).run.player.relics
      = Player.relicsWithout run.player.relics
        (s.resolve run balance raw).resolution.rescuedBy := by
  rw [player_resolve, Player.relics_onCombatEnd]
  show (s.survivorOf run balance raw).relics = _
  rw [survivorOf, Player.relics_suffer, Player.relics_affected]
  rfl

/-- **What has nothing to do with hit points, gold and relics**, a turn does not change. -/
theorem resolve_keeps {β : Type} (f : Player → β)
    (h : ∀ p hp maxHp gold relics,
      f { p with hp := hp, maxHp := maxHp, gold := gold, relics := relics } = f p) :
    f (s.resolve run balance raw).run.player = f run.player := by
  have hend : ∀ r victory p, f (Relic.onCombatEnd r victory p) = f p := fun r victory p => by
    cases r <;> cases victory <;> first | rfl | exact h p _ p.maxHp p.gold p.relics
  have heffect : ∀ p effect, f (PlayerEffect.apply p effect) = f p := fun p effect => by
    cases effect
    · exact h p _ p.maxHp p.gold p.relics
    · exact h p _ _ p.gold p.relics
  rw [player_resolve, Player.onCombatEnd_keeps f hend]
  refine (h (s.survivorOf run balance raw) _ _ _ _).trans ?_
  rw [survivorOf, Player.suffer_keeps f fun p hp relics => h p hp p.maxHp p.gold relics]
  exact Player.affected_keeps f heffect _ _

/-- A turn changes no dice of the player's pool. -/
theorem dicePool_resolve :
    (s.resolve run balance raw).run.player.dicePool = run.player.dicePool :=
  s.resolve_keeps run balance raw Player.dicePool fun _ _ _ _ _ => rfl

/-- **A turn takes no relic** but the one that saves the player, and keeps all others in their
order. -/
theorem filter_relics_resolve {f : Relic → Bool} (hf : f .phoenixFeather = false) :
    (s.resolve run balance raw).run.player.relics.filter f = run.player.relics.filter f := by
  rw [player_resolve, Player.relics_onCombatEnd]
  show (s.survivorOf run balance raw).relics.filter f = _
  rw [survivorOf, Player.filter_relics_suffer _ _ _ hf, Player.relics_affected]

theorem count_relics_resolve {r : Relic} (hr : r ≠ .phoenixFeather) :
    (s.resolve run balance raw).run.player.relics.count r = run.player.relics.count r := by
  have hkeeps := s.filter_relics_resolve run balance raw (f := (· == r))
    (beq_eq_false_iff_ne.mpr hr.symm)
  rw [List.count_eq_length_filter, hkeeps, List.count_eq_length_filter]

/-- A relic that saves nobody is owned after a turn if it was before. -/
theorem mem_relics_resolve {r : Relic} (hr : r ≠ .phoenixFeather) :
    r ∈ (s.resolve run balance raw).run.player.relics ↔ r ∈ run.player.relics := by
  rw [← List.count_pos_iff, s.count_relics_resolve run balance raw hr, List.count_pos_iff]

/-- The tally counts what is reported, and nothing else of the progress changes. -/
theorem progress_resolve :
    (s.resolve run balance raw).run.progress
      = { run.progress with
          tally := run.progress.tally.after (s.resolve run balance raw).resolution } := rfl

/-- The hit points that are reported are what is left, and never negative. -/
theorem monsterHp_eq_positivePart :
    (s.resolve run balance raw).resolution.monsterHp
      = Scalar.positivePart (s.judgementOf run balance raw).remainder := rfl

/-- **A lethal hit** is reported as the death of the monster. -/
theorem monsterDead_of_isLethal (hzero : (0 : α) ≤ 0)
    (h : (s.resolve run balance raw).resolution.outcome.isLethal = true) :
    (s.resolve run balance raw).resolution.monsterDead = true := by
  show decide ((s.judgementOf run balance raw).remainder ≤ 0) = true
  rw [Judgement.remainder_of_isLethal h]
  exact decide_eq_true hzero

end Session

/-- A hit on the target is lethal. -/
theorem Outcome.isLethal_of_isExact {α : Type} {o : Outcome α} (h : o.isExact = true) :
    o.isLethal = true := by
  unfold isExact at h
  split at h
  · next hkind => rw [isLethal, hkind]; rfl
  · cases h

end Arithmancy
