import Arithmancy.Proofs.Game.Course

/-!
# Games that begin

A run begins with a player at full health who owns dice, a hand of operator cards and no relic,
and no encounter is open. Which dice these are is for a loadout to say, and on which floor it is,
with which amounts and against which monsters, for the settings. What is said of every game that
is reached rarely depends on any of this. So there is a name for the games from which it can be
reached (`Game.Begins`), and all of it may be anything in them. A new game is such a game
(`Game.begins_of_new`): no loadout is empty, and no penalty takes all dice.
-/

namespace Arithmancy

/-- A penalty takes some dice of a pool but never all of them. -/
theorem Run.penalized_ne_nil {pool : List DieSpec} (h : pool ≠ []) (n : Nat) :
    penalized pool n ≠ [] := by
  induction n generalizing pool with
  | zero => exact h
  | succ n ih =>
    refine ih ?_
    split
    · next hmany =>
      have hfour : Modifiers.minPoolForPenalty = 4 := rfl
      refine List.ne_nil_of_length_pos ?_
      rw [List.length_dropLast]
      omega
    · exact h

theorem Loadout.dice_ne_nil (l : Loadout) : l.dice ≠ [] := by
  cases l <;> exact List.cons_ne_nil _ _

namespace Game

variable {α : Type}

/-- **A game that begins**: no encounter is open, and the player is at full health and owns some
dice and no relic. -/
structure Begins (g : Game α) : Prop where
  /-- No encounter is open. -/
  closed : g.session = none
  /-- The player is fresh, with any dice and any hand. -/
  fresh : ∃ hp gold rerolls pool hand, pool ≠ []
    ∧ g.run.player = .fresh hp gold rerolls pool hand

variable {g : Game α}

/-- **A new game begins**, whatever its settings. -/
theorem begins_of_new [Scalar α] {settings : Settings α} {bestiary : Bestiary}
    (h : Game.new settings bestiary = .ok g) : g.Begins := by
  rw [eq_of_new h]
  exact ⟨rfl, _, _, _, _, _, Run.penalized_ne_nil settings.loadout.dice_ne_nil _, rfl⟩

namespace Begins

/-- There are dice at the beginning. -/
theorem dicePool_ne_nil (h : g.Begins) : g.run.player.dicePool ≠ [] := by
  obtain ⟨hp, gold, rerolls, pool, hand, hpool, hplayer⟩ := h.fresh
  rw [hplayer]
  exact hpool

/-- There is no relic at the beginning. -/
theorem relics_eq_nil (h : g.Begins) : g.run.player.relics = [] := by
  obtain ⟨hp, gold, rerolls, pool, hand, -, hplayer⟩ := h.fresh
  rw [hplayer]
  rfl

/-- All hit points are there at the beginning. -/
theorem hp_eq_maxHp (h : g.Begins) : g.run.player.hp = g.run.player.maxHp := by
  obtain ⟨hp, gold, rerolls, pool, hand, -, hplayer⟩ := h.fresh
  rw [hplayer]
  rfl

theorem session_ne_some (h : g.Begins) (s : Session α) : g.session ≠ some s := by
  rw [h.closed]
  nofun

end Begins

end Game

end Arithmancy
