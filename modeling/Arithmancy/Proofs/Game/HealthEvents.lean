import Arithmancy.Number.Exact
import Arithmancy.Proofs.Game.Moves

/-!
# What a subscriber knows of hit points

Hit points and their limit are told on the player's topic: after a turn that changed them,
and whenever a relic is acquired. A subscriber who has heard every event knows them from
the last one that told them, or from the start of the game (`heard`).

One change goes unheard. The relic that heals on rerolls heals the player, and a reroll
tells nothing of hit points. The main statement, `Game.heard_health_iff`, says that it is
the only one: a subscriber always knows the player's hit points exactly if no such reroll
is made.
-/

namespace Arithmancy

/-- **What a subscriber knows** who knew some hit points and was then told others: the last
that were told. -/
def heard (known : Nat × Nat) (healths : List (Nat × Nat)) : Nat × Nat :=
  healths.getLast?.getD known

theorem heard_append (known : Nat × Nat) (healths healths' : List (Nat × Nat)) :
    heard known (healths ++ healths') = heard (heard known healths) healths' := by
  rw [heard, List.getLast?_append]
  cases h : healths'.getLast? with
  | none => rw [heard, h]; rfl
  | some health => rw [heard, h]; rfl

namespace Game

variable {α : Type} [Scalar α]

/-! ## Healing that goes unheard -/

/-- **A move heals the player unheard**: a reroll that is not refused, made by a player who
owns the relic that heals on rerolls and does not stand at the limit. -/
def HealsUnheard (g : Game α) (m : Move α) : Prop :=
  m = .reroll ∧ (g.play m).isRefused = false
    ∧ .secondWind ∈ g.run.player.relics ∧ g.run.player.hp ≠ g.run.player.maxHp

variable {g g' : Game α} {m : Move α} {refused : Bool} {healths : List (Nat × Nat)}

/-- **A subscriber who knows the hit points before a move** knows those after it, unless the
move heals the player unheard. -/
theorem heard_of_leadsTo (hleads : g.LeadsTo m refused g' healths) :
    heard g.run.player.health healths = g'.run.player.health
      ↔ ¬(m = .reroll ∧ refused = false
        ∧ .secondWind ∈ g.run.player.relics ∧ g.run.player.hp ≠ g.run.player.maxHp) := by
  cases hleads with
  | refused => exact iff_of_true rfl (fun h => nomatch h.2.1)
  | look => exact iff_of_true rfl (fun h => nomatch h.1)
  | start _ _ _ => exact iff_of_true rfl (fun h => nomatch h.1)
  | finish _ _ => exact iff_of_true rfl (fun h => nomatch h.1)
  | giveUp => exact iff_of_true rfl (fun h => nomatch h.1)
  | acquire _ => exact iff_of_true rfl (fun h => nomatch h.1)
  | deed hm hs hd =>
    cases Scene.leadsTo_of_perform? hd with
    | edit hlocal _ _ =>
      rw [Deed.tells_of_isLocal hlocal]
      refine iff_of_true rfl ?_
      rintro ⟨rfl, -⟩
      rw [← Option.some.inj hm] at hlocal
      cases hlocal
    | reroll _ _ =>
      obtain rfl := Move.deed?_eq_reroll_iff.mp hm
      simp only [true_and]
      exact eq_comm.trans Player.health_onReroll_eq_iff
    | submit raw _ =>
      refine iff_of_true ?_ ?_
      · show heard _ (if _ then _ else _) = _
        split
        · next hsame => exact hsame.symm
        · rfl
      · rintro ⟨rfl, -⟩
        cases hm
    | acquire _ => exact absurd hm (Move.deed?_ne_acquire _ _)

/-- One more move is heard unless it heals unheard. -/
theorem heard_concat_iff (g : Game α) (moves : List (Move α)) (m : Move α)
    (h : heard g.run.player.health (told (g.eventsOf moves)) = (g.after moves).run.player.health) :
    heard g.run.player.health (told (g.eventsOf (moves ++ [m])))
        = (g.after (moves ++ [m])).run.player.health
      ↔ ¬(g.after moves).HealsUnheard m := by
  rw [eventsOf_concat, told_append, heard_append, h, after_concat]
  exact heard_of_leadsTo (leadsTo_play _ m)

/-- **A subscriber always knows the player's hit points**, after any part of a history,
exactly if no move of the history heals the player unheard. -/
theorem heard_health_iff (g : Game α) (moves : List (Move α)) :
    (∀ ms, ms <+: moves →
        heard g.run.player.health (told (g.eventsOf ms)) = (g.after ms).run.player.health)
      ↔ ∀ ms m, ms ++ [m] <+: moves → ¬(g.after ms).HealsUnheard m := by
  constructor
  · intro hheard ms m hprefix
    have hbefore := hheard ms ((List.prefix_append ms [m]).trans hprefix)
    exact (heard_concat_iff g ms m hbefore).mp (hheard _ hprefix)
  · intro hall ms
    induction ms using List.reverseRecOn with
    | nil => exact fun _ => rfl
    | append_singleton ms m ih =>
      intro hprefix
      have hbefore := ih ((List.prefix_append ms [m]).trans hprefix)
      exact (heard_concat_iff g ms m hbefore).mpr (hall ms m hprefix)

/-- The moves of a player who owns the relic that heals on rerolls, is hit, and rerolls. -/
def windedFight : List (Move Float) :=
  [.grantRelic .secondWind, .startCombat (.random false), .placeDie ⟨0⟩, .submit, .reroll]

/-- **A reroll goes unheard**: the subscriber still counts the hit points of before. -/
theorem reroll_unheard :
    ∃ g : Game Float, Game.new .standard .builtIn = .ok g
      ∧ heard g.run.player.health (told (g.eventsOf windedFight)) = (75, 80)
      ∧ (g.after windedFight).run.player.health = (76, 80) :=
  ⟨_, rfl, by decide +kernel⟩

end Game

end Arithmancy
