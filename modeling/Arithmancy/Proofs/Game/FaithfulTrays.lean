import Arithmancy.Proofs.Encounter.TrayContents
import Arithmancy.Proofs.Game.RandomStream

/-!
# Trays and their owner

A tray is dealt by the relics that the player owns at that moment, and it is played with while
relics come and one of them goes. So it is not plain that the tray on the table is the tray of
its owner. The main statement, `Game.tray_mirrors_player`, says that it always is: the dice of
the pool in their order, and behind them the dice that relics have added, in the order in which
these were acquired. A relic that was acquired in the middle of a turn is the only one that may
still miss its die, and it misses it no longer than to the next fresh tray.

The relic that saves the player is lost, but it has nothing to do with dice; and so what a turn
takes from the player never leaves a die without its owner.
-/

namespace Arithmancy

namespace Session

variable {s : Session Float} {run : Run Float} {balance : Balance Float} {t : TurnResult Float}

/-- **A turn that does not end the encounter** leaves a tray from which no die is missing. -/
theorem mirrors_of_submit (hpool : run.player.dicePool ≠ [])
    (ht : s.submit run balance = .ok t) (hgoes : t.session.isOver = false) :
    Tray.Mirrors t.run.player.dicePool t.run.player.diceRelics t.session.dice := by
  obtain ⟨raw, -, rfl⟩ := submit_eq_ok_iff.mp ht
  have hsame := s.dicePool_resolve run balance raw
  rcases s.tray_resolve run balance raw with ⟨hover, -⟩ | ⟨s', hfresh⟩
  · rw [hover] at hgoes
    cases hgoes
  · rw [hfresh]
    exact Tray.mirrors_dealTray (hsame.symm ▸ hpool) s'.generator

end Session

namespace Game

variable {g g' : Game Float}

/-- **A game in which the tray mirrors the player**, if an encounter is open. -/
def Mirrors (g : Game Float) : Prop := ∀ s, g.session = some s → s.Mirrors g.run.player

/-- **Every move** leaves the player a tray that mirrors the player. -/
theorem Mirrors.of_course {m : Move Float} {refused : Bool} {events : List (Event Float)}
    (h : g.Mirrors) (hpool : g.run.player.dicePool ≠ []) (hcourse : g.Course m refused g' events) :
    g'.Mirrors := by
  cases hcourse with
  | refused _ => exact h
  | look => exact h
  | start _ _ hs => exact fun s hsome => Option.some.inj hsome ▸ Session.mirrors_of_start hpool hs
  | deed _ _ hs hd =>
    have hscene := Session.Mirrors.of_perform? (c := ⟨_, g.run⟩) (h _ hs) hpool hd
    exact fun s hsome => Option.some.inj hsome ▸ hscene
  | turn hs ht => exact fun s hsome => Option.some.inj hsome ▸ (h _ hs).submit rfl hpool ht
  | acquire hp => exact fun s hs => (h s hs).acquire hp
  | win _ _ => exact fun _ hs => nomatch hs
  | lose _ _ => exact fun _ hs => nomatch hs
  | giveUp => exact fun _ hs => nomatch hs

/-- **A fresh tray lacks nothing**, whether a turn deals it or the start of an encounter. -/
theorem mirrors_of_fresh {m : Move Float} {events : List (Event Float)}
    (hpool : g.run.player.dicePool ≠ []) (hcourse : g.Course m false g' events)
    (hdeals : m = .submit ∨ ∃ challenge, m = .startCombat challenge) {s : Session Float}
    (hs : g'.session = some s) (hgoes : s.isOver = false) :
    Tray.Mirrors g'.run.player.dicePool g'.run.player.diceRelics s.dice := by
  rcases hdeals with rfl | ⟨challenge, rfl⟩
  · cases hcourse with
    | turn _ ht =>
      obtain rfl := Option.some.inj hs
      exact Session.mirrors_of_submit hpool ht hgoes
    | deed hm hturn _ _ => exact absurd (Option.some.inj hm).symm hturn
  · cases hcourse with
    | start _ _ hstart =>
      obtain rfl := Option.some.inj hs
      obtain ⟨_, _, _, -, -, rfl⟩ := Session.exists_of_start hstart
      exact Tray.mirrors_dealTray hpool _
    | deed hm _ _ _ => cases hm

/-- **The tray always mirrors the player**, whatever is played and whenever relics are acquired.
There is at most one relic of each kind that adds a die. The dice of the pool lie on the tray in
their order, numbered from zero, and behind them, numbered on, one die for each relic that adds
one, in the order in which these were acquired: the copy of a die that lies before it, or the
bonus die. Only the relics that were acquired last may still miss their dice, and they have
them when the next fresh tray is dealt. What a die shows lies between one and its highest face,
and is one of its faces unless the relic is owned that raises rolls. -/
theorem tray_mirrors_player (h : g.Begins) (moves : List (Move Float)) :
    (g.after moves).run.player.diceRelics.Nodup
      ∧ (∀ s, (g.after moves).session = some s → s.Mirrors (g.after moves).run.player)
      ∧ ∀ m s, (m = .submit ∨ ∃ challenge, m = .startCombat challenge) →
        ((g.after moves).play m).isRefused = false →
        ((g.after moves).play m).game.session = some s → s.isOver = false →
          Tray.Mirrors ((g.after moves).play m).game.run.player.dicePool
            ((g.after moves).play m).game.run.player.diceRelics s.dice := by
  have hequipped := h.equipped_after moves
  have hmirrors := after_induction (P := fun g => g.Equipped ∧ g.Mirrors)
    ⟨h.equipped, fun s hs => absurd hs (h.session_ne_some s)⟩
    (fun _ _ _ _ _ hg hcourse => ⟨hg.1.of_course hcourse, hg.2.of_course hg.1.pool hcourse⟩) moves
  refine ⟨hequipped.relics.filter _, hmirrors.2, fun m s hdeals hdone hs hgoes => ?_⟩
  have hcourse := (g.after moves).course_play m
  rw [hdone] at hcourse
  exact mirrors_of_fresh hequipped.pool hcourse hdeals hs hgoes

/-- The moves of a player who meets a rat with the relic that copies a die, rerolls all dice
but the first, and acquires in the middle of the turn the relics that raise rolls and that add
a bonus die. -/
def collectorsTurn : List (Move Float) :=
  [.grantRelic .mirrorShard, .startCombat (.monster "rat"), .toggleHold ⟨0⟩, .reroll,
    .grantRelic .chaosOrb, .grantRelic .extraHand]

/-- The copy lies behind the dice of the pool, and the bonus die is still missing. -/
theorem tray_mirrors_player_collector :
    ∃ g s, Game.new .standard .builtIn = .ok g
      ∧ (g.after collectorsTurn).session = some s
      ∧ s.Mirrors (g.after collectorsTurn).run.player
      ∧ (g.after collectorsTurn).run.player.diceRelics = [.mirrorShard, .extraHand]
      ∧ s.dice.length = (g.after collectorsTurn).run.player.dicePool.length + 1 := by
  obtain ⟨g, hnew, hopen, hrelics, hlength⟩ : ∃ g : Game Float,
      Game.new .standard .builtIn = .ok g
        ∧ (g.after collectorsTurn).session.isSome = true
        ∧ (g.after collectorsTurn).run.player.diceRelics = [.mirrorShard, .extraHand]
        ∧ ∀ s ∈ (g.after collectorsTurn).session,
          s.dice.length = (g.after collectorsTurn).run.player.dicePool.length + 1 :=
    ⟨_, rfl, by decide +kernel⟩
  obtain ⟨s, hs⟩ := Option.isSome_iff_exists.mp hopen
  obtain ⟨-, hmirrors, -⟩ := tray_mirrors_player (begins_of_new hnew) collectorsTurn
  exact ⟨g, s, hnew, hs, hmirrors s hs, hrelics, hlength s hs⟩

end Game

end Arithmancy
