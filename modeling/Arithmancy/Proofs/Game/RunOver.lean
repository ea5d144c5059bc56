import Arithmancy.Number.Exact
import Arithmancy.Proofs.Game.Moves

/-!
# Runs that are over

A run is over once the player is dead or has given up, and while it is over no encounter
starts. To give up is final. Death is final, too, but for one loophole: relics are given to
the dead as to the living, and the relic that raises hit points together with their limit
brings the dead back to life. The main statement, `Game.over_unless_revived`, says that
there is no other way out of a run that is over, and that there is none at all for a player
who owns that relic already.
-/

namespace Arithmancy

variable {α : Type}

namespace Game

theorem isRunOver_iff {g : Game α} :
    g.isRunOver = true ↔ g.abandoned = true ∨ g.run.player.hp = 0 := by
  rw [isRunOver, Bool.or_eq_true, Bool.not_eq_true', Player.isAlive_eq_false_iff]

theorem isRunOver_eq_false_iff {g : Game α} :
    g.isRunOver = false ↔ g.abandoned = false ∧ 0 < g.run.player.hp := by
  rw [isRunOver, Bool.or_eq_false_iff, Bool.not_eq_false', Player.isAlive_iff]

variable [Scalar α] {g g' : Game α} {m : Move α} {refused : Bool} {healths : List (Nat × Nat)}

/-! ## What is possible while a run is over -/

/-- No encounter starts while the run is over. -/
theorem startCombat_of_isRunOver (h : g.isRunOver = true) (challenge : Challenge) :
    g.startCombat challenge = g.refuse .runOver := if_pos h

theorem game_play_grantRelic {r : Relic} {p : Player} (h : g.run.player.addRelic r = .ok p) :
    (g.play (.grantRelic r)).game = { g with run := { g.run with player := p } } := by
  show (g.grantRelic r).game = _
  rw [grantRelic, h]

/-- To give up is final. -/
theorem abandoned_of_leadsTo (h : g.abandoned = true) (hleads : g.LeadsTo m refused g' healths) :
    g'.abandoned = true := by
  cases hleads <;> first | exact h | rfl

/-- **While the player is dead**, nothing changes the player but a new relic: a turn or a
reroll would need an encounter that goes on. -/
theorem player_of_leadsTo_of_dead (hvital : g.Vital) (hdead : g.run.player.hp = 0)
    (hleads : g.LeadsTo m refused g' healths) :
    g'.run.player = g.run.player
      ∨ ∃ r, m = .grantRelic r ∧ g.run.player.addRelic r = .ok g'.run.player := by
  cases hleads with
  | refused => exact .inl rfl
  | look => exact .inl rfl
  | start _ _ _ => exact .inl rfl
  | finish _ _ => exact .inl rfl
  | giveUp => exact .inl rfl
  | acquire hp => exact .inr ⟨_, rfl, hp⟩
  | deed hm hs hd =>
    have hlives := hvital.alive _ hs
    rw [hdead] at hlives
    cases Scene.leadsTo_of_perform? hd with
    | edit _ _ _ => exact .inl rfl
    | reroll hover _ => exact absurd (hlives hover) (Nat.lt_irrefl 0)
    | submit _ hover => exact absurd (hlives hover) (Nat.lt_irrefl 0)
    | acquire _ => exact absurd hm (Move.deed?_ne_acquire _ _)

/-- No relic is lost while the player is dead. -/
theorem mem_relics_of_leadsTo_of_dead (hvital : g.Vital) (hdead : g.run.player.hp = 0)
    (hleads : g.LeadsTo m refused g' healths) {r : Relic} (hr : r ∈ g.run.player.relics) :
    r ∈ g'.run.player.relics := by
  rcases player_of_leadsTo_of_dead hvital hdead hleads with h | ⟨_, -, h⟩
  · rwa [h]
  · rw [(Player.of_addRelic h).2.2]
    exact List.mem_append_left _ hr

/-! ## The way out -/

/-- **One move revives a run that is over**, and it does so only if the player is dead and
has not given up. -/
theorem isRunOver_play_eq_false_iff (hvital : g.Vital) (hover : g.isRunOver = true)
    (m : Move α) :
    (g.play m).game.isRunOver = false
      ↔ g.abandoned = false ∧ .ironSkin ∉ g.run.player.relics ∧ m = .grantRelic .ironSkin := by
  have hleads := g.leadsTo_play m
  rw [isRunOver_eq_false_iff]
  constructor
  · rintro ⟨hkept, hlives⟩
    have hfalse : g.abandoned = false := by
      rw [← Bool.not_eq_true]
      intro h
      rw [abandoned_of_leadsTo h hleads] at hkept
      cases hkept
    have hdead := (isRunOver_iff.mp hover).resolve_left (Bool.not_eq_true _ ▸ hfalse)
    rcases player_of_leadsTo_of_dead hvital hdead hleads with h | ⟨r, rfl, h⟩
    · rw [h, hdead] at hlives
      exact absurd hlives (Nat.lt_irrefl 0)
    · obtain rfl := (Player.hp_addRelic_of_dead hdead h).mp hlives
      exact ⟨hfalse, Player.hasRelic_eq_false_iff.mp (Player.of_addRelic h).1, rfl⟩
  · rintro ⟨hkept, hnew, rfl⟩
    have hdead := (isRunOver_iff.mp hover).resolve_left (Bool.not_eq_true _ ▸ hkept)
    obtain ⟨p, hp⟩ := Player.exists_addRelic hnew
    rw [game_play_grantRelic hp]
    exact ⟨hkept, (Player.hp_addRelic_of_dead hdead hp).mpr rfl⟩

/-- **A run stays over** if the player has given up, owns the relic that revives, or is not
given it. -/
theorem isRunOver_after (hvital : g.Vital) (hover : g.isRunOver = true) {moves : List (Move α)}
    (h : g.abandoned = true ∨ .ironSkin ∈ g.run.player.relics ∨ .grantRelic .ironSkin ∉ moves) :
    (g.after moves).isRunOver = true := by
  induction moves generalizing g with
  | nil => exact hover
  | cons m moves ih =>
    have hleads := g.leadsTo_play m
    refine ih (hvital.of_leadsTo hleads) ?_ ?_
    · -- the one move that would revive the player is excluded in each of the three cases
      rw [← Bool.not_eq_false, isRunOver_play_eq_false_iff hvital hover]
      rintro ⟨hkept, hnew, rfl⟩
      rcases h with h | h | h
      · rw [h] at hkept
        cases hkept
      · exact hnew h
      · exact h List.mem_cons_self
    · rcases h with h | h | h
      · exact .inl (abandoned_of_leadsTo h hleads)
      · rcases isRunOver_iff.mp hover with hgave | hdead
        · exact .inl (abandoned_of_leadsTo hgave hleads)
        · exact .inr (.inl (mem_relics_of_leadsTo_of_dead hvital hdead hleads h))
      · exact .inr (.inr fun hmem => h (List.mem_cons_of_mem m hmem))

/-- **A run that is over stays over, unless the player is revived.** The only move after
which it goes on is to give the relic that raises hit points to a dead player who does not
own it and has not given up. After any moves that do not do that, the run is still over,
and no encounter can be started. -/
theorem over_unless_revived (h : g.Reached) (hover : g.isRunOver = true) :
    (∀ m, (g.play m).game.isRunOver = false
        ↔ g.abandoned = false ∧ .ironSkin ∉ g.run.player.relics ∧ m = .grantRelic .ironSkin)
      ∧ ∀ moves, g.abandoned = true ∨ .ironSkin ∈ g.run.player.relics
          ∨ .grantRelic .ironSkin ∉ moves →
        (g.after moves).isRunOver = true
          ∧ ∀ challenge, ((g.after moves).play (.startCombat challenge)).answer
            = .error .runOver := by
  refine ⟨isRunOver_play_eq_false_iff h.vital hover, fun moves hmoves => ?_⟩
  have hafter := isRunOver_after h.vital hover hmoves
  refine ⟨hafter, fun challenge => ?_⟩
  show (((g.after moves).startCombat challenge).reply .session).answer = _
  rw [startCombat_of_isRunOver hafter]
  rfl

/-- The settings of a run with a single hit point. -/
def frailSettings : Settings Rat where
  balance := { Balance.standard with startingHp := 1 }
  eventBuffer := Settings.defaultBuffer
  seed := 1
  ascension := 0
  loadout := .standard

/-- A turn that a single hit point does not survive. -/
def lethal : List (Move Rat) := [.startCombat (.monster "rat"), .placeDie ⟨0⟩, .submit]

/-- A run that is over after one turn can be revived in one way. -/
theorem over_unless_revived_frail :
    ∃ g, Game.new frailSettings .builtIn = .ok g
      ∧ (g.after lethal).isRunOver = true
      ∧ ((g.after lethal).play (.grantRelic .ironSkin)).game.isRunOver = false
      ∧ ∀ moves, .grantRelic .ironSkin ∉ moves →
        ((g.after lethal).after moves).isRunOver = true := by
  obtain ⟨g, hnew, hover, hkept, hrelics⟩ : ∃ g, Game.new frailSettings .builtIn = .ok g
      ∧ (g.after lethal).isRunOver = true ∧ (g.after lethal).abandoned = false
      ∧ .ironSkin ∉ (g.after lethal).run.player.relics := ⟨_, rfl, by decide +kernel⟩
  have hunless := over_unless_revived (.after (.new hnew) lethal) hover
  exact ⟨g, hnew, hover, (hunless.1 _).mpr ⟨hkept, hrelics, rfl⟩,
    fun moves hmoves => (hunless.2 moves (.inr (.inr hmoves))).1⟩

/-- Five turns of a player who does not strike a dragon hard enough. -/
def dragonFight : List (Move Float) :=
  .startCombat (.monster "ancient_dragon") :: (List.replicate 5 [.placeDie ⟨0⟩, .submit]).flatten

/-- **A run that was over goes on.** The dragon kills the player, who is then given a relic,
closes the lost encounter, and starts another one. -/
theorem ironSkin_revives :
    ∃ g : Game Float, Game.new .standard .builtIn = .ok g
      ∧ (g.after dragonFight).isRunOver = true
      ∧ (g.after (dragonFight ++ [.grantRelic .ironSkin])).isRunOver = false
      ∧ ((g.after (dragonFight ++ [.grantRelic .ironSkin, .finishCombat])).startCombat
          (.random false)).answer.isOk = true :=
  ⟨_, rfl, by decide +kernel⟩

end Game

end Arithmancy
