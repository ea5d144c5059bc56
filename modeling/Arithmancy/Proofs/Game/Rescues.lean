import Arithmancy.Proofs.Encounter.Verdicts
import Arithmancy.Proofs.Game.RandomStream

/-!
# Rescues

One relic saves its owner from a killing blow, and is lost by it. In the turn in which this
happens much is done to the same hit points: relics heal because of the value that was submitted,
other relics soften the blow, and after a victory relics heal once more. So it is said here when
exactly the owner is saved: when the blow takes all hit points that the player has by then
(`Session.rescuedBy_resolve_iff`). Whoever owns the relic at the start of a turn lives at its
end.

The relic can be acquired again once it is lost. Over a whole history it is accounted for like a
coin, and so is every other relic: what was granted has been spent on a rescue, or is still there
(`Game.grants_accounted`). The main statement, `Game.rescue_exact`, puts the turn and the history
together.
-/

namespace Arithmancy

variable {α : Type} [Scalar α]

/-! ## One turn -/

/-- **A blow kills the owner of no feather**: the owner is saved instead. -/
theorem Player.hp_suffer_pos (p : Player) {relics : List Relic} (h : .phoenixFeather ∈ relics)
    (damage : Nat) : 0 < (p.suffer relics damage).1.hp := by
  rw [suffer_eq, if_pos h]
  split
  · next halive => exact isAlive_iff.mp halive
  · exact Nat.one_pos

namespace Session

/-- **The player who is about to be struck**, with what relics did because of the value. -/
def bracedOf (s : Session α) (run : Run α) (raw : α) : Player :=
  run.player.affected (s.appraisalOf run raw).effects

variable (s : Session α) (run : Run α) (balance : Balance α) (raw : α)

/-- **The blow of a turn** finds the player who is braced, and leaves the one who survives, if
need be with the help of the relic that is reported. -/
theorem suffer_bracedOf :
    let blow := (s.bracedOf run raw).suffer run.player.relics
      (s.resolve run balance raw).resolution.damageTaken
    blow.1 = s.survivorOf run balance raw
      ∧ (s.resolve run balance raw).resolution.rescuedBy = blow.2.map (·.relic) := by
  rw [survivorOf, bracedOf, ← s.appraisal_judgementOf run balance]
  exact ⟨rfl, rfl⟩

/-- **A relic saves the player** exactly if it is the feather, the player owns it, and the damage
of the turn takes all hit points. -/
theorem rescuedBy_resolve_iff {r : Relic} :
    (s.resolve run balance raw).resolution.rescuedBy = some r
      ↔ r = .phoenixFeather ∧ .phoenixFeather ∈ run.player.relics
        ∧ ((s.bracedOf run raw).takeDamage
          (s.resolve run balance raw).resolution.damageTaken).hp = 0 := by
  rw [(s.suffer_bracedOf run balance raw).2, Player.suffer_eq, ← Player.isAlive_eq_false_iff]
  split
  · next halive =>
    rw [halive]
    exact iff_of_false nofun fun h => nomatch h.2.2
  · next hdead =>
    rw [Bool.not_eq_true] at hdead
    split
    · next hmem => exact ⟨fun h => ⟨(Option.some.inj h).symm, hmem, hdead⟩, fun h => h.1 ▸ rfl⟩
    · next hmem => exact iff_of_false nofun fun h => hmem h.2.1

/-- **What a turn does to the feather** and to its owner. -/
structure RescuesExactly (s : Session α) (run run' : Run α) (r : Resolution α) : Prop where
  /-- The player lives when the monster strikes. -/
  braced : 0 < (s.bracedOf run r.rawValue).hp
  /-- The feather saves its owner, and nobody else, from damage that takes all hit points. -/
  rescued_iff : r.rescuedBy = some .phoenixFeather ↔ .phoenixFeather ∈ run.player.relics
    ∧ ((s.bracedOf run r.rawValue).takeDamage r.damageTaken).hp = 0
  /-- No other relic saves anybody. -/
  only : ∀ q, r.rescuedBy = some q → q = .phoenixFeather
  /-- Then the feather is gone, and the player lives. -/
  saved : r.rescuedBy = some .phoenixFeather →
    .phoenixFeather ∉ run'.player.relics ∧ 1 ≤ run'.player.hp
  /-- All other relics keep their order, and without a rescue so does the feather. -/
  relics : run'.player.relics = if r.rescuedBy = some .phoenixFeather
    then run.player.relics.filter (· != .phoenixFeather) else run.player.relics
  /-- Who owned the feather before the turn is not killed in it. -/
  spared : .phoenixFeather ∈ run.player.relics →
    r.playerDead = false ∧ r.phase ≠ .defeat ∧ 0 < run'.player.hp

/-- **Every turn** of a player who lives, within the limit of hit points, rescues exactly. -/
theorem rescuesExactly_resolve {run : Run α} (hwithin : run.player.hp ≤ run.player.maxHp)
    (halive : 0 < run.player.hp) :
    s.RescuesExactly run (s.resolve run balance raw).run
      (s.resolve run balance raw).resolution := by
  have hrescued {r : Relic} := s.rescuedBy_resolve_iff run balance raw (r := r)
  have hrelics := s.relics_resolve run balance raw
  have hspared (hmem : .phoenixFeather ∈ run.player.relics) :
      0 < (s.survivorOf run balance raw).hp := by
    rw [← (s.suffer_bracedOf run balance raw).1]
    exact Player.hp_suffer_pos _ hmem _
  have hlives (hmem : .phoenixFeather ∈ run.player.relics) :
      0 < (s.resolve run balance raw).run.player.hp :=
    (s.hp_resolve_pos_iff balance raw hwithin halive).mpr (.inl (hspared hmem))
  refine ⟨(run.player.gentle_affected _).alive hwithin halive, ?_, fun q h => (hrescued.mp h).1,
    fun h => ⟨?_, hlives (hrescued.mp h).2.1⟩, ?_, fun hmem => ?_⟩
  · rw [hrescued, and_iff_right rfl]
    rfl
  · rw [hrelics, h]
    exact fun hmem => bne_iff_ne.mp (List.mem_filter.mp hmem).2 rfl
  · rw [hrelics]
    cases hby : (s.resolve run balance raw).resolution.rescuedBy with
    | none => rfl
    | some q =>
      obtain rfl := (hrescued.mp hby).1
      rfl
  · have hdead : (s.resolve run balance raw).resolution.playerDead = false := by
      rw [playerDead_resolve, Player.isAlive_iff.mpr (hspared hmem)]
      rfl
    refine ⟨hdead, ?_, hlives hmem⟩
    rw [phase_resolve, hdead]
    cases (s.resolve run balance raw).resolution.monsterDead <;> decide

end Session

/-! ## Whole histories -/

/-- Whether a step is a turn in which a relic saved the player. -/
def Step.saves (r : Relic) (s : Step α (Reply α)) : Bool :=
  match s.answer with
  | .ok (.resolution resolution) => resolution.rescuedBy == some r
  | _ => false

/-- Whether a move asks for a relic. -/
def Move.asksFor (r : Relic) : Move α → Bool
  | grantRelic q => q == r
  | _ => false

omit [Scalar α] in
/-- What is done in an encounter grants no relic. -/
theorem Move.asksFor_of_deed? {m : Move α} {d : Deed α} (h : m.deed? = some d) (r : Relic) :
    m.asksFor r = false := by
  cases m <;> first | rfl | cases h

omit [Scalar α] in
/-- An operation whose answer is no report saves nobody. -/
theorem Step.saves_reply {β : Type} {f : β → Reply α} (hf : ∀ b r, f b ≠ .resolution r)
    (r : Relic) (s : Step α β) : (s.reply f).saves r = false := by
  unfold saves reply
  cases s.answer with
  | error fault => rfl
  | ok b =>
    dsimp only [Except.map]
    split
    · next h => exact absurd (Except.ok.inj h) (hf b _)
    · rfl

namespace Game

/-- **How often a relic saved the player** in the course of some moves. -/
def rescues (g : Game α) (r : Relic) (moves : List (Move α)) : Nat :=
  (g.playAll moves).countP (Step.saves r)

/-- **How often a relic was granted** in the course of some moves, refusals apart. -/
def grants (g : Game α) (r : Relic) (moves : List (Move α)) : Nat :=
  (moves.zip (g.playAll moves)).countP fun p => p.1.asksFor r && !p.2.isRefused

variable {g g' : Game α}

/-- Only a turn saves the player. -/
theorem saves_play (g : Game α) {m : Move α} (hm : m ≠ .submit) (r : Relic) :
    (g.play m).saves r = false := by
  cases m with
  | submit => exact absurd rfl hm
  | _ =>
    refine Step.saves_reply ?_ r _
    intro _ _ h
    cases h

/-- **A move other than a turn** takes no relic from the player. -/
theorem hasRelic_of_course {m : Move α} {refused : Bool} {events : List (Event α)}
    (h : g.Course m refused g' events) (hm : m ≠ .submit) (r : Relic) :
    (g'.run.player.hasRelic r).toNat
      = (g.run.player.hasRelic r).toNat + (m.asksFor r && !refused).toNat := by
  cases h with
  | refused _ =>
    rw [Bool.not_true, Bool.and_false]
    rfl
  | turn _ _ => exact absurd rfl hm
  | acquire hp =>
    rw [Bool.not_false, Bool.and_true]
    exact Player.toNat_hasRelic_addRelic hp r
  | deed hd hturn _ hdone =>
    rw [Move.asksFor_of_deed? hd]
    cases Scene.becomes_of_perform? hdone with
    | edit _ _ => rfl
    | target _ => rfl
    | reroll _ =>
      exact congrArg (fun relics => (relics.contains r).toNat) (Player.relics_onReroll _)
    | turn _ => exact absurd rfl hturn
    | acquire _ => exact absurd hd (Move.deed?_ne_acquire _ _)
  | look | start _ _ _ | win _ _ | lose _ _ | giveUp => rfl

/-- **A turn** takes from the player the relic that is reported as the rescue, and no other. -/
theorem hasRelic_submit (g : Game α) (r : Relic) :
    (g.run.player.hasRelic r).toNat
      = ((g.play .submit).saves r).toNat
        + ((g.play .submit).game.run.player.hasRelic r).toNat := by
  show _ = ((g.submit.reply .resolution).saves r).toNat
    + (g.submit.game.run.player.hasRelic r).toNat
  cases hs : g.session with
  | none =>
    rw [submit, onSession, hs]
    exact (Nat.zero_add _).symm
  | some s =>
    cases hsubmit : s.submit g.run g.settings.balance with
    | error fault =>
      rw [submit_of_error hs hsubmit]
      exact (Nat.zero_add _).symm
    | ok t =>
      rw [submit_of_ok hs hsubmit]
      obtain ⟨raw, -, rfl⟩ := Session.submit_eq_ok_iff.mp hsubmit
      have hrelics := s.relics_resolve g.run g.settings.balance raw
      show _ = ((s.resolve g.run g.settings.balance raw).resolution.rescuedBy == some r).toNat
        + ((s.resolve g.run g.settings.balance raw).run.player.hasRelic r).toNat
      rw [Player.hasRelic, Player.hasRelic, hrelics]
      refine Player.toNat_contains_relicsWithout (fun q hq => ?_) r
      obtain ⟨rfl, hmem, -⟩ := (s.rescuedBy_resolve_iff g.run g.settings.balance raw).mp hq
      exact hmem

/-- **Every move accounts for every relic**: what the player had, and what was granted, saved the
player or is still there. -/
theorem hasRelic_play (g : Game α) (m : Move α) (r : Relic) :
    (g.run.player.hasRelic r).toNat + (m.asksFor r && !(g.play m).isRefused).toNat
      = ((g.play m).saves r).toNat + ((g.play m).game.run.player.hasRelic r).toNat := by
  by_cases hm : m = .submit
  · subst hm
    exact g.hasRelic_submit r
  · rw [g.saves_play hm, hasRelic_of_course (g.course_play m) hm]
    exact (Nat.zero_add _).symm

/-- **Relics are accounted for**: what the player had at first, and what was granted, has been
spent on rescues or is still there. -/
theorem grants_accounted (g : Game α) (r : Relic) (moves : List (Move α)) :
    (g.run.player.hasRelic r).toNat + g.grants r moves
      = g.rescues r moves + ((g.after moves).run.player.hasRelic r).toNat := by
  induction moves generalizing g with
  | nil => exact Nat.add_comm _ 0
  | cons m moves ih =>
    have hstep := g.hasRelic_play m r
    have hrest := ih (g.play m).game
    have hgrants : g.grants r (m :: moves)
        = (g.play m).game.grants r moves + (m.asksFor r && !(g.play m).isRefused).toNat := by
      rw [grants, playAll, List.zip_cons_cons, List.countP_cons]
      cases m.asksFor r && !(g.play m).isRefused <;> rfl
    have hrescues : g.rescues r (m :: moves)
        = (g.play m).game.rescues r moves + ((g.play m).saves r).toNat := by
      rw [rescues, playAll, List.countP_cons]
      cases (g.play m).saves r <;> rfl
    rw [hgrants, hrescues]
    show _ = _ + (((g.play m).game.after moves).run.player.hasRelic r).toNat
    omega

/-- **Rescues are exact**, whatever is played and whenever the feather is granted. In every turn
that is resolved the feather saves its owner exactly if the damage takes all hit points; then it
is gone, the player lives, and all other relics keep their order; and a turn that its owner
begins ends neither with a dead player nor in defeat. Over the whole history, the feathers that
were granted are those that saved the player and the one that is still there. -/
theorem rescue_exact (h : g.Begins) (moves : List (Move α)) :
    (∀ r, (g.after moves).submit.answer = .ok r → ∃ s, (g.after moves).session = some s
        ∧ s.RescuesExactly (g.after moves).run (g.after moves).submit.game.run r)
      ∧ g.rescues .phoenixFeather moves
          + ((g.after moves).run.player.hasRelic .phoenixFeather).toNat
        = g.grants .phoenixFeather moves := by
  constructor
  · intro r hr
    have hvital := h.vital_after moves
    obtain ⟨s, -, hs, -⟩ := exists_report_of_isOk (g := g.after moves) (by rw [hr]; rfl)
    obtain ⟨t, ht, rfl, hgame⟩ := exists_turn_of_submit hs hr
    obtain ⟨raw, haccept, rfl⟩ := Session.submit_eq_ok_iff.mp ht
    have hbuilding := (Session.accept_eq_ok_iff.mp haccept).1
    rw [hgame]
    exact ⟨s, hs, s.rescuesExactly_resolve _ raw hvital.within (hvital.alive s hs hbuilding)⟩
  · have hnone : g.run.player.hasRelic .phoenixFeather = false := by
      rw [Player.hasRelic, h.relics_eq_nil]
      rfl
    have haccounts := g.grants_accounted .phoenixFeather moves
    rw [hnone] at haccounts
    exact (haccounts.symm.trans (Nat.zero_add _))

/-- The settings of a game whose player has a single hit point. -/
def frailty : Settings Rat :=
  let standard : Settings Rat := .standard
  { standard with balance := { standard.balance with startingHp := 1 } }

/-- The moves of a player who acquires the feather and is about to strike at a rat with one
die. -/
def feathersTurn : List (Move Rat) :=
  [.grantRelic .phoenixFeather, .startCombat (.monster "rat"), .placeDie ⟨0⟩]

/-- The moves of the same player, who is saved from the rat and finds another feather. -/
def secondFeather : List (Move Rat) :=
  feathersTurn ++ [.submit, .grantRelic .phoenixFeather]

/-- Two feathers were granted, one is still there, and so there was one rescue. -/
theorem rescue_exact_frail :
    ∃ g s r, Game.new frailty .builtIn = .ok g
      ∧ (g.after feathersTurn).session = some s
      ∧ (g.after feathersTurn).submit.answer = .ok r
      ∧ s.RescuesExactly (g.after feathersTurn).run (g.after feathersTurn).submit.game.run r
      ∧ r.rescuedBy = some .phoenixFeather
      ∧ g.rescues .phoenixFeather secondFeather + 1 = 2 := by
  obtain ⟨g, hnew, haccepted, hsaved, howned, hgranted⟩ :
      ∃ g, Game.new frailty .builtIn = .ok g
        ∧ (g.after feathersTurn).submit.answer.isOk = true
        ∧ (∀ r ∈ (g.after feathersTurn).submit.answer.toOption,
          r.rescuedBy = some .phoenixFeather)
        ∧ (g.after secondFeather).run.player.hasRelic .phoenixFeather = true
        ∧ g.grants .phoenixFeather secondFeather = 2 :=
    ⟨_, rfl, by decide +kernel⟩
  obtain ⟨-, r, -, hr⟩ := exists_report_of_isOk haccepted
  obtain ⟨hturns, -⟩ := rescue_exact (begins_of_new hnew) feathersTurn
  obtain ⟨-, haccounts⟩ := rescue_exact (begins_of_new hnew) secondFeather
  obtain ⟨s, hs, hrescues⟩ := hturns r hr
  rw [howned, hgranted] at haccounts
  exact ⟨g, s, r, hnew, hs, hr, hrescues, hsaved r (by rw [hr]; rfl), haccounts⟩

end Game

end Arithmancy
