import Mathlib.Data.List.Induction
import Arithmancy.Game.Move
import Arithmancy.Proofs.Encounter.Deeds

/-!
# The course of a game

A move that is refused does nothing at all. Any other is a look ahead, a deed in the open
encounter, the start or the end of an encounter, the end of the run, or the acquisition of
a relic, inside an encounter or outside. This module says so once (`Game.course_play`),
with the game after the move and with all that it publishes; so statements about histories
need not look into the operations.

A history grows by one move at a time, and its events by those of the move. What holds of a
game before anything is published, and is kept by every move together with its events, holds
after any moves together with theirs (`Game.history_induction`).
-/

namespace Arithmancy

variable {α : Type}

/-- **Whether a step is refused**: its answer is a fault, or that nothing was done. -/
def Step.isRefused (s : Step α (Reply α)) : Bool :=
  match s.answer with
  | .error _ | .ok (.flag false) => true
  | _ => false

/-! ## Moves and deeds -/

/-- **The deed a move asks for** in the open encounter. A relic can be given to the player
inside an encounter and outside, and so it is not counted among the deeds here. -/
def Move.deed? : Move α → Option (Deed α)
  | placeDie id => some (.placeDie id)
  | placeOperator slot => some (.placeOperator slot)
  | placeToken t place => some (.placeToken t place)
  | removeToken i => some (.removeToken i)
  | moveToken i j => some (.moveToken i j)
  | clearExpression => some .clearExpression
  | toggleHold id => some (.toggleHold id)
  | reroll => some .reroll
  | rerollBossTarget => some .rerollBossTarget
  | submit => some .submit
  | preview | startCombat _ | finishCombat | giveUp | grantRelic _ => none

theorem Move.deed?_ne_acquire (m : Move α) (r : Relic) : m.deed? ≠ some (.acquire r) := by
  cases m <;> nofun

theorem Move.deed?_eq_reroll_iff {m : Move α} : m.deed? = some .reroll ↔ m = .reroll := by
  cases m <;> simp [deed?]

/-- **What is published of a deed** other than a turn, given the encounter after it. -/
def Deed.announcement (s : Session α) : Deed α → List (Event α)
  | reroll => [.combat (.rerolled s.turn s.rerollsLeft)]
  | rerollBossTarget => [.combat (.bossTargetRerolled s.monster.hp)]
  | _ => []

/-- Edits are not published. -/
theorem Deed.announcement_of_isEdit {d : Deed α} (h : d.isEdit = true) (s : Session α) :
    d.announcement s = [] := by
  cases d <;> first | rfl | cases h

/-- A refusal publishes nothing, or that a submission was rejected. -/
def IsRefusal (events : List (Event α)) : Prop :=
  events = [] ∨ ∃ turn fault, events = [.combat (.rejected turn fault)]

namespace Game

/-- **What is published of a turn on the encounter's topic**: its report, and the end of the
encounter if it is over. -/
theorem combat_turnEvents (before : Player) (t : TurnResult α) :
    (turnEvents before t).filterMap Event.combat?
      = .resolved t.resolution :: if t.resolution.phase.isOver
        then [.ended t.resolution.phase t.resolution.turn] else [] := by
  have hrescue : (t.resolution.rescuedBy.map fun relic =>
      (Event.player (.relicConsumed relic) : Event α)).toList.filterMap Event.combat? = [] := by
    cases t.resolution.rescuedBy <;> rfl
  have hhealth : (if t.run.player.hp = before.hp ∧ t.run.player.maxHp = before.maxHp
      then [] else hpEvents t.run.player : List (Event α)).filterMap Event.combat? = [] := by
    split <;> rfl
  have hgold : (if t.run.player.gold = before.gold then []
      else [(Event.player (.goldChanged t.run.player.gold (t.run.player.gold - before.gold)) :
        Event α)]).filterMap Event.combat? = [] := by
    split <;> rfl
  unfold turnEvents
  dsimp only
  simp only [List.filterMap_append]
  rw [hrescue, hhealth, hgold]
  split <;> rfl

variable [Scalar α]

/-- **The course of a move**: whether it is refused, the game after it, and what it
publishes. -/
inductive Course (g : Game α) : Move α → Bool → Game α → List (Event α) → Prop where
  /-- The move is refused, and nothing is done. -/
  | refused {m : Move α} {events : List (Event α)} (hevents : IsRefusal events) :
      Course g m true g events
  /-- The player looks ahead. -/
  | look : Course g .preview false g []
  /-- A deed other than a turn is done in the open encounter. -/
  | deed {m : Move α} {d : Deed α} {s : Session α} {c : Scene α} (hm : m.deed? = some d)
      (hturn : d ≠ .submit) (hs : g.session = some s)
      (hd : Scene.perform? g.settings.balance ⟨s, g.run⟩ d = some c) :
      Course g m false { g with session := some c.session, run := c.run }
        (d.announcement c.session)
  /-- A turn is resolved in the open encounter. -/
  | turn {s : Session α} {t : TurnResult α} (hs : g.session = some s)
      (ht : s.submit g.run g.settings.balance = .ok t) :
      Course g .submit false { g with session := some t.session, run := t.run }
        (turnEvents g.run.player t)
  /-- An encounter starts. -/
  | start {challenge : Challenge} {s : Session α} (hlive : g.isRunOver = false)
      (hnone : g.session = none) (hs : Session.start g.run g.bestiary challenge = .ok s) :
      Course g (.startCombat challenge) false (g.withSession s)
        [.combat (.started (summarize g.run.progress s))]
  /-- An encounter that was won is closed, and the next floor is entered. -/
  | win {s : Session α} (hs : g.session = some s) (hphase : s.phase = .victory) :
      Course g .finishCombat false { g with
        session := none
        run := { g.run with progress := g.run.progress.advanceFloor } }
        [.player (.floorAdvanced g.run.progress.advanceFloor.floor
          g.run.progress.advanceFloor.act)]
  /-- An encounter that was lost is closed. -/
  | lose {s : Session α} (hs : g.session = some s) (hphase : s.phase = .defeat) :
      Course g .finishCombat false { g with session := none } []
  /-- The player gives up. -/
  | giveUp : Course g .giveUp false { g with session := none, abandoned := true }
      (g.session.map fun s => Event.combat (.abandoned s.turn)).toList
  /-- The player acquires a relic. -/
  | acquire {r : Relic} {p : Player} (hp : g.run.player.addRelic r = .ok p) :
      Course g (.grantRelic r) false { g with run := { g.run with player := p } }
        (.player (.relicGained r) :: hpEvents p)

/-! ## Every move -/

section

variable {g : Game α} {m : Move α}

/-- **A step accounts for itself** if it is what its move may come to. -/
def Accounts (g : Game α) (m : Move α) (s : Step α (Reply α)) : Prop :=
  g.Course m s.isRefused s.game s.events

theorem accounts_refuse {β : Type} (fault : GameFault α) (f : β → Reply α) :
    g.Accounts m ((g.refuse fault).reply f) := .refused (.inl rfl)

/-- An operation on the open encounter accounts for itself if it does so on that
encounter. -/
theorem accounts_onSession {β : Type} {f : Session α → Step α β} {reply : β → Reply α}
    (h : ∀ s, g.session = some s → g.Accounts m ((f s).reply reply)) :
    g.Accounts m ((g.onSession f).reply reply) := by
  unfold onSession
  cases hs : g.session with
  | none => exact accounts_refuse _ reply
  | some s => exact h s hs

/-- An edit accounts for itself if it is a deed of which nothing is published. -/
theorem accounts_onExpression {f : Session α → Except EditFault (Session α)} {d : Deed α}
    (hm : m.deed? = some d) (hturn : d ≠ .submit) (hsilent : ∀ s, d.announcement s = [])
    (hf : ∀ s, Scene.perform? g.settings.balance ⟨s, g.run⟩ d
      = (f s).toOption.map (Scene.withSession ⟨s, g.run⟩)) :
    g.Accounts m ((g.onExpression f).reply fun _ => .done) := by
  refine accounts_onSession fun s hs => ?_
  have hd := hf s
  cases hedit : f s with
  | error fault => exact accounts_refuse _ _
  | ok s' =>
    rw [hedit] at hd
    have hcourse := Course.deed hm hturn hs hd
    rw [hsilent] at hcourse
    exact hcourse

end

/-- **Every move takes** one of the courses that `Course` lists. -/
theorem course_play (g : Game α) (m : Move α) :
    g.Course m (g.play m).isRefused (g.play m).game (g.play m).events := by
  show g.Accounts m (g.play m)
  cases m with
  | placeDie id => exact accounts_onExpression rfl nofun (fun _ => rfl) fun _ => rfl
  | placeOperator slot => exact accounts_onExpression rfl nofun (fun _ => rfl) fun _ => rfl
  | placeToken t place => exact accounts_onExpression rfl nofun (fun _ => rfl) fun _ => rfl
  | moveToken i j => exact accounts_onExpression rfl nofun (fun _ => rfl) fun _ => rfl
  | clearExpression => exact accounts_onExpression rfl nofun (fun _ => rfl) fun _ => rfl
  | removeToken i =>
    refine accounts_onSession fun s hs => ?_
    cases hremove : s.removeToken i with
    | error fault => exact accounts_refuse _ _
    | ok r =>
      exact .deed (d := .removeToken i) rfl nofun hs
        (Scene.toOption_map_eq_some_iff.mpr ⟨r, hremove, rfl⟩)
  | toggleHold id =>
    refine accounts_onSession fun s hs => ?_
    cases htoggle : s.toggleHold? id with
    | none => exact .refused (.inl rfl)
    | some s' =>
      exact .deed (d := .toggleHold id) rfl nofun hs
        (Option.map_eq_some_iff.mpr ⟨s', htoggle, rfl⟩)
  | reroll =>
    refine accounts_onSession fun s hs => ?_
    cases hreroll : s.reroll? g.run.player with
    | none => exact .refused (.inl rfl)
    | some r =>
      exact .deed (d := .reroll) rfl nofun hs (Option.map_eq_some_iff.mpr ⟨r, hreroll, rfl⟩)
  | rerollBossTarget =>
    refine accounts_onSession fun s hs => ?_
    cases hreroll : s.rerollBossTarget? g.run.progress with
    | none => exact .refused (.inl rfl)
    | some s' =>
      exact .deed (d := .rerollBossTarget) rfl nofun hs
        (Option.map_eq_some_iff.mpr ⟨s', hreroll, rfl⟩)
  | preview =>
    refine accounts_onSession fun s _ => ?_
    cases s.preview g.run g.settings.balance with
    | error fault => exact accounts_refuse _ _
    | ok p => exact .look
  | submit =>
    refine accounts_onSession fun s hs => ?_
    cases hsubmit : s.submit g.run g.settings.balance with
    | error fault => exact .refused (.inr ⟨_, _, rfl⟩)
    | ok t => exact .turn hs hsubmit
  | startCombat challenge =>
    show g.Accounts _ ((g.startCombat challenge).reply .session)
    unfold startCombat
    split
    · exact accounts_refuse _ _
    · next hlive =>
      split
      · exact accounts_refuse _ _
      · next hnone =>
        cases hstart : Session.start g.run g.bestiary challenge with
        | error fault => exact accounts_refuse _ _
        | ok s =>
          exact .start (Bool.not_eq_true _ ▸ hlive)
            (Option.not_isSome_iff_eq_none.mp hnone) hstart
  | finishCombat =>
    refine accounts_onSession fun s hs => ?_
    cases hphase : s.phase with
    | building =>
      rw [if_pos (by rw [Session.isOver, hphase]; rfl)]
      exact accounts_refuse _ _
    | victory =>
      rw [if_neg (by rw [Session.isOver, hphase]; decide), if_pos rfl]
      exact .win hs hphase
    | defeat =>
      rw [if_neg (by rw [Session.isOver, hphase]; decide), if_neg nofun]
      exact .lose hs hphase
  | giveUp => exact .giveUp
  | grantRelic r =>
    show g.Accounts _ ((g.grantRelic r).reply fun _ => .done)
    unfold grantRelic
    cases hadd : g.run.player.addRelic r with
    | error fault => exact accounts_refuse _ _
    | ok p => exact .acquire hadd

/-- An encounter that is started is open from then on. -/
theorem start_of_startCombat {g : Game α} {challenge : Challenge} {s : Session α}
    (h : (g.startCombat challenge).answer = .ok s) :
    Session.start g.run g.bestiary challenge = .ok s
      ∧ (g.startCombat challenge).game = g.withSession s := by
  unfold startCombat at h ⊢
  split at h
  · cases h
  · next hlive =>
    rw [if_neg hlive]
    split at h
    · cases h
    · next hclosed =>
      rw [if_neg hclosed]
      cases hs : Session.start g.run g.bestiary challenge with
      | error fault =>
        rw [hs] at h
        cases h
      | ok s' =>
        rw [hs] at h
        obtain rfl := Except.ok.inj h
        exact ⟨rfl, rfl⟩

/-! ## Histories -/

/-- **A new game** is the start of a run, with no encounter open. -/
theorem eq_of_new {settings : Settings α} {bestiary : Bestiary} {g : Game α}
    (h : Game.new settings bestiary = .ok g) :
    g = ⟨settings, bestiary,
      let modifiers := Modifiers.forLevel settings.ascension settings.balance
      { player := .fresh modifiers.startingHp modifiers.startingGold
          settings.balance.rerollsPerTurn
          (Run.penalized settings.loadout.dice modifiers.startingDicePenalty) startingHand
        progress := .start settings.seed modifiers }, none, false⟩ := by
  unfold Game.new Run.start at h
  split at h
  · cases h
  · next run hrun =>
    split at hrun
    · cases hrun
    · rw [← Except.ok.inj h, ← Except.ok.inj hrun]

theorem after_concat (g : Game α) (moves : List (Move α)) (m : Move α) :
    g.after (moves ++ [m]) = ((g.after moves).play m).game :=
  List.foldl_append

theorem eventsOf_cons (g : Game α) (m : Move α) (moves : List (Move α)) :
    g.eventsOf (m :: moves) = (g.play m).events ++ (g.play m).game.eventsOf moves :=
  List.flatMap_cons

theorem eventsOf_concat (g : Game α) (moves : List (Move α)) (m : Move α) :
    g.eventsOf (moves ++ [m]) = g.eventsOf moves ++ ((g.after moves).play m).events := by
  induction moves generalizing g with
  | nil => exact List.flatMap_singleton _ _
  | cons m' moves ih =>
    rw [List.cons_append, eventsOf_cons, ih, eventsOf_cons, List.append_assoc]
    rfl

/-- **What every move keeps** holds after any moves if it holds before them. -/
theorem after_induction {P : Game α → Prop} {g : Game α} (h : P g)
    (step : ∀ g m refused g' events, P g → g.Course m refused g' events → P g')
    (moves : List (Move α)) : P (g.after moves) :=
  List.foldlRecOn (motive := P) moves _ h fun g hg m _ => step g m _ _ _ hg (g.course_play m)

/-- **What every move keeps** together with its events holds after any moves together with
all their events, if it holds before anything is published. -/
theorem history_induction {P : Game α → List (Event α) → Prop} {g : Game α} (h : P g [])
    (step : ∀ g m refused g' events events', P g events → g.Course m refused g' events' →
      P g' (events ++ events')) (moves : List (Move α)) :
    P (g.after moves) (g.eventsOf moves) := by
  induction moves using List.reverseRecOn with
  | nil => exact h
  | append_singleton moves m ih =>
    rw [after_concat, eventsOf_concat]
    exact step _ m _ _ _ _ ih (course_play _ m)

end Game

end Arithmancy
