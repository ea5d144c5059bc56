import Arithmancy.Proofs.Encounter.Survival
import Arithmancy.Proofs.Game.Beginnings

/-!
# What a move does to the player

Of all that a move publishes, a subscriber of the player's topic learns the hit points only
after a turn that changed them and when a relic is acquired. This module reads the course of
a move in this light (`Game.leadsTo_play`): the game after it, and what is told of hit
points on the way.

The first use is made of it here. In every game that is reached, hit points are within
their limit, and the player lives as long as the open encounter goes on
(`Game.Reached.vital`).
-/

namespace Arithmancy

variable {α : Type}

/-! ## What is told of hit points -/

/-- The hit points and their limit, if an event tells them. -/
def PlayerEvent.health? : PlayerEvent → Option (Nat × Nat)
  | hpChanged hp maxHp => some (hp, maxHp)
  | _ => none

/-- **What some events tell a subscriber of the player's topic** of hit points and their
limit. -/
def told (events : List (Event α)) : List (Nat × Nat) :=
  (events.filterMap Event.player?).filterMap PlayerEvent.health?

theorem told_append (events events' : List (Event α)) :
    told (events ++ events') = told events ++ told events' := by
  rw [told, List.filterMap_append, List.filterMap_append, told, told]

/-- What is told of hit points after a deed, given the player before it and after it: they
are told after a turn that changed them. -/
def Deed.tells (before after : Player) : Deed α → List (Nat × Nat)
  | submit => if after.health = before.health then [] else [after.health]
  | _ => []

/-- A deed that concerns the encounter alone tells nothing. -/
theorem Deed.tells_of_isLocal {d : Deed α} (h : d.isLocal = true) (p p' : Player) :
    d.tells p p' = [] := by
  cases d <;> first | rfl | cases h

theorem told_turnEvents (before : Player) (t : TurnResult α) :
    told (Game.turnEvents before t)
      = Deed.tells before t.run.player (.submit : Deed α) := by
  unfold Game.turnEvents
  simp only [told_append]
  have hrescue : told ((t.resolution.rescuedBy.map fun relic =>
      (Event.player (.relicConsumed relic) : Event α)).toList) = [] := by
    cases t.resolution.rescuedBy <;> rfl
  have hgold : told (if t.run.player.gold = before.gold then []
      else [(Event.player (.goldChanged t.run.player.gold (t.run.player.gold - before.gold)) :
        Event α)]) = [] := by
    split <;> rfl
  have hended : told (if t.resolution.phase.isOver = true
      then [(Event.combat (.ended t.resolution.phase t.resolution.turn) : Event α)]
      else []) = [] := by
    split <;> rfl
  rw [hrescue, hgold, hended, List.append_nil, List.append_nil, List.append_nil]
  show told (if _ then _ else _) = if _ then _ else _
  simp only [Player.health, Prod.mk.injEq]
  split <;> rfl

namespace Game

variable [Scalar α]

/-- **What a move leads to**: whether it is refused, the game after it, and what is told of
hit points. -/
inductive LeadsTo (g : Game α) : Move α → Bool → Game α → List (Nat × Nat) → Prop where
  /-- The move is refused, and nothing is done. -/
  | refused {m : Move α} : LeadsTo g m true g []
  /-- The player looks ahead. -/
  | look : LeadsTo g .preview false g []
  /-- A deed is done in the open encounter. -/
  | deed {m : Move α} {d : Deed α} {s : Session α} {c : Scene α} (hm : m.deed? = some d)
      (hs : g.session = some s)
      (hd : Scene.perform? g.settings.balance ⟨s, g.run⟩ d = some c) :
      LeadsTo g m false { g with session := some c.session, run := c.run }
        (d.tells g.run.player c.player)
  /-- An encounter starts. -/
  | start {challenge : Challenge} {s : Session α} (hlive : g.isRunOver = false)
      (hnone : g.session = none) (hs : Session.start g.run g.bestiary challenge = .ok s) :
      LeadsTo g (.startCombat challenge) false (g.withSession s) []
  /-- An encounter that is over is closed, and a victory leads to the next floor. -/
  | finish {s : Session α} (hs : g.session = some s) (hover : s.isOver = true) :
      LeadsTo g .finishCombat false { g with
        session := none
        run := { g.run with
          progress := if s.phase = .victory then g.run.progress.advanceFloor
            else g.run.progress } } []
  /-- The player gives up. -/
  | giveUp : LeadsTo g .giveUp false { g with session := none, abandoned := true } []
  /-- The player acquires a relic. -/
  | acquire {r : Relic} {p : Player} (hp : g.run.player.addRelic r = .ok p) :
      LeadsTo g (.grantRelic r) false { g with run := { g.run with player := p } } [p.health]

section

variable {g g' : Game α} {m : Move α} {refused : Bool} {healths : List (Nat × Nat)}

theorem game_of_refused (h : g.LeadsTo m true g' healths) : g' = g := by
  cases h
  rfl

theorem game_of_look (h : g.LeadsTo .preview refused g' healths) : g' = g := by
  cases h with
  | refused => rfl
  | look => rfl
  | deed hm _ _ => cases hm

end

/-! ## Every move -/

/-- Of the course that a move takes, a subscriber of the player's topic learns what
`LeadsTo` says. -/
theorem leadsTo_of_course {g g' : Game α} {m : Move α} {refused : Bool}
    {events : List (Event α)} (h : g.Course m refused g' events) :
    g.LeadsTo m refused g' (told events) := by
  cases h with
  | refused hevents => rcases hevents with rfl | ⟨_, _, rfl⟩ <;> exact .refused
  | look => exact .look
  | @deed _ d s c hm hturn hs hd =>
    have htold : told (d.announcement c.session) = d.tells g.run.player c.player := by
      cases d <;> first | rfl | exact absurd rfl hturn
    rw [htold]
    exact .deed hm hs hd
  | turn hs ht =>
    rw [told_turnEvents]
    exact .deed (d := .submit) rfl hs (Scene.toOption_map_eq_some_iff.mpr ⟨_, ht, rfl⟩)
  | start hlive hnone hs => exact .start hlive hnone hs
  | win hs hphase =>
    have hleads := LeadsTo.finish hs (by rw [Session.isOver, hphase]; rfl)
    rwa [if_pos hphase] at hleads
  | lose hs hphase =>
    have hleads := LeadsTo.finish hs (by rw [Session.isOver, hphase]; rfl)
    rwa [if_neg (by rw [hphase]; decide)] at hleads
  | giveUp =>
    have htold : told (g.session.map fun s => (Event.combat (.abandoned s.turn) :
        Event α)).toList = [] := by
      cases g.session <;> rfl
    rw [htold]
    exact .giveUp
  | acquire hp => exact .acquire hp

/-- **Every move leads to** what `LeadsTo` says. -/
theorem leadsTo_play (g : Game α) (m : Move α) :
    g.LeadsTo m (g.play m).isRefused (g.play m).game (told (g.play m).events) :=
  leadsTo_of_course (g.course_play m)

/-! ## Games that are reached -/

/-- **The games that are reached** by moves from a new game. -/
inductive Reached : Game α → Prop where
  /-- A new game. -/
  | new {settings : Settings α} {bestiary : Bestiary} {g : Game α}
      (h : Game.new settings bestiary = .ok g) : Reached g
  /-- The game after a move. -/
  | play {g : Game α} (h : Reached g) (m : Move α) : Reached (g.play m).game

theorem Reached.after {g : Game α} (h : g.Reached) (moves : List (Move α)) :
    (g.after moves).Reached :=
  List.foldlRecOn (motive := Reached) moves _ h fun _ hg m _ => hg.play m

/-- **A vital game**: hit points are within their limit, and the player lives as long as
the open encounter goes on. -/
structure Vital (g : Game α) : Prop where
  /-- Hit points are within their limit. -/
  within : g.run.player.hp ≤ g.run.player.maxHp
  /-- The player lives as long as the open encounter goes on. -/
  alive : ∀ s, g.session = some s → s.isOver = false → 0 < g.run.player.hp

omit [Scalar α] in
theorem Vital.scene {g : Game α} (h : g.Vital) {s : Session α} (hs : g.session = some s) :
    (⟨s, g.run⟩ : Scene α).Vital :=
  ⟨h.within, h.alive s hs⟩

/-- **Every move keeps a game vital.** -/
theorem Vital.of_leadsTo {g g' : Game α} {m : Move α} {refused : Bool}
    {healths : List (Nat × Nat)} (h : g.Vital) (hleads : g.LeadsTo m refused g' healths) :
    g'.Vital := by
  cases hleads with
  | refused => exact h
  | look => exact h
  | deed _ hs hd =>
    have hscene := Scene.vital_of_perform? (h.scene hs) hd
    exact ⟨hscene.within, fun s hsome => Option.some.inj hsome ▸ hscene.alive⟩
  | start hlive _ _ =>
    rw [isRunOver, Bool.or_eq_false_iff, Bool.not_eq_false', Player.isAlive_iff] at hlive
    exact ⟨h.within, fun _ _ _ => hlive.2⟩
  | finish _ _ => exact ⟨h.within, fun _ hs => nomatch hs⟩
  | giveUp => exact ⟨h.within, fun _ hs => nomatch hs⟩
  | acquire hp =>
    have hgentle := Player.gentle_addRelic hp
    exact ⟨hgentle.within h.within, fun s hs hover => hgentle.alive h.within (h.alive s hs hover)⟩

omit [Scalar α] in
theorem Begins.vital {g : Game α} (h : g.Begins) : g.Vital :=
  ⟨Nat.le_of_eq h.hp_eq_maxHp, fun s hs _ => absurd hs (h.session_ne_some s)⟩

/-- **Whatever is played**, hit points stay within their limit, and the player of an encounter
that goes on lives. -/
theorem Begins.vital_after {g : Game α} (h : g.Begins) (moves : List (Move α)) :
    (g.after moves).Vital :=
  after_induction h.vital (fun _ _ _ _ _ hg hcourse => hg.of_leadsTo (leadsTo_of_course hcourse))
    moves

theorem vital_of_new {settings : Settings α} {bestiary : Bestiary} {g : Game α}
    (h : Game.new settings bestiary = .ok g) : g.Vital :=
  (begins_of_new h).vital

/-- **Every game that is reached is vital.** -/
theorem Reached.vital {g : Game α} (h : g.Reached) : g.Vital := by
  induction h with
  | new h => exact vital_of_new h
  | play _ m ih => exact ih.of_leadsTo (leadsTo_play _ m)

end Game

end Arithmancy
