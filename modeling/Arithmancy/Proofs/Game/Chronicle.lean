import Arithmancy.Number.Exact
import Arithmancy.Proofs.Encounter.Spoils
import Arithmancy.Proofs.Game.Course

/-!
# The story that events tell

A subscriber who hears every event can keep a **chronicle** of the game: the player's gold and
relics, the floor and the act, and of the open encounter the number to hit and whether it is
over. Every event rewrites the part that it speaks of and nothing else (`Chronicle.hear`), so
the chronicle knows nothing of the game but what was published.

The main statement, `Game.chronicle_tells`, says that nothing is missing: after any moves the
chronicle agrees with the game, and every change of gold that was told is the difference from
the gold that was known before. Of what the chronicle could speak of, hit points are left
out; they have a module of their own, because there something is missing.
-/

namespace Arithmancy

/-- **What a subscriber knows** of a game, hit points apart. -/
structure Chronicle (α : Type) where
  /-- The player's gold. -/
  gold : Nat
  /-- The player's relics, in the order in which they were acquired. -/
  relics : List Relic
  /-- The floor. -/
  floor : Nat
  /-- The act. -/
  act : Nat
  /-- The number to hit that was told last, if any was. -/
  target : Option α
  /-- Whether an end was told since the last start. -/
  ended : Bool
deriving DecidableEq, Repr

namespace Chronicle

variable {α : Type}

/-- What is known before anything is published: the gold that a run starts with. -/
def start (gold : Nat) : Chronicle α := ⟨gold, [], 0, 1, none, false⟩

/-- What is known after one more event of the encounter. -/
def hearCombat (c : Chronicle α) : CombatEvent α → Chronicle α
  | .started summary => { c with target := some summary.target, ended := false }
  | .resolved r => { c with target := some r.monsterHp }
  | .bossTargetRerolled target => { c with target := some target }
  | .ended _ _ => { c with ended := true }
  | _ => c

/-- What is known after one more event of the player. -/
def hearPlayer (c : Chronicle α) : PlayerEvent → Chronicle α
  | .goldChanged gold _ => { c with gold := gold }
  | .relicGained r => { c with relics := c.relics ++ [r] }
  | .relicConsumed r => { c with relics := c.relics.filter (· != r) }
  | .floorAdvanced floor act => { c with floor := floor, act := act }
  | .hpChanged _ _ => c

/-- **What is known after one more event.** -/
def hear (c : Chronicle α) : Event α → Chronicle α
  | .combat e => c.hearCombat e
  | .player e => c.hearPlayer e

/-- **What is known after some events.** -/
def after (c : Chronicle α) (events : List (Event α)) : Chronicle α := events.foldl hear c

theorem after_append (c : Chronicle α) (events events' : List (Event α)) :
    c.after (events ++ events') = (c.after events).after events' :=
  List.foldl_append

/-! ## Topics -/

/-- The two topics speak of different things. -/
theorem hearPlayer_hearCombat (c : Chronicle α) (e : CombatEvent α) (e' : PlayerEvent) :
    (c.hearCombat e).hearPlayer e' = (c.hearPlayer e').hearCombat e := by
  cases e <;> cases e' <;> rfl

/-- Events of the player can be heard before an event of the encounter or after it. -/
theorem foldl_hearPlayer_hearCombat (c : Chronicle α) (e : CombatEvent α)
    (events : List PlayerEvent) :
    events.foldl hearPlayer (c.hearCombat e) = (events.foldl hearPlayer c).hearCombat e := by
  induction events generalizing c with
  | nil => rfl
  | cons e' events ih =>
    rw [List.foldl_cons, hearPlayer_hearCombat, ih]
    rfl

/-- **The topics can be read one after the other.** -/
theorem after_eq_topics (c : Chronicle α) (events : List (Event α)) :
    c.after events = (events.filterMap Event.combat?).foldl hearCombat
      ((events.filterMap Event.player?).foldl hearPlayer c) := by
  induction events generalizing c with
  | nil => rfl
  | cons e events ih =>
    show (c.hear e).after events = _
    rw [ih]
    cases e with
    | player e => rfl
    | combat e =>
      show List.foldl hearCombat (List.foldl hearPlayer (c.hearCombat e) _) _ = _
      rw [foldl_hearPlayer_hearCombat]
      rfl

/-! ## Changes of gold -/

/-- **Gold adds up** over some events: every change that is told is the difference from the
gold known before it. -/
def AddsUp (c : Chronicle α) (events : List (Event α)) : Prop :=
  ∀ before gold delta rest, events = before ++ .player (.goldChanged gold delta) :: rest →
    (c.after before).gold + delta = gold

variable {c : Chronicle α} {events events' : List (Event α)}

/-- Gold adds up where nothing is told of it. -/
theorem addsUp_of_silent (h : ∀ gold delta, .player (.goldChanged gold delta) ∉ events) :
    c.AddsUp events := by
  rintro before gold delta rest rfl
  exact absurd (List.mem_append_right before List.mem_cons_self) (h gold delta)

theorem addsUp_nil (c : Chronicle α) : c.AddsUp [] := addsUp_of_silent fun _ _ => List.not_mem_nil

/-- Events of the encounter do not tell of gold. -/
theorem addsUp_combat (c : Chronicle α) (event : CombatEvent α) : c.AddsUp [.combat event] :=
  addsUp_of_silent fun _ _ hmem => by simp at hmem

theorem addsUp_append (h : c.AddsUp events) (h' : (c.after events).AddsUp events') :
    c.AddsUp (events ++ events') := by
  intro before gold delta rest heq
  -- the change is told among the events of one list or of the other
  rcases List.append_eq_append_iff.mp heq with ⟨between, rfl, hrest⟩ | ⟨between, hsplit, hrest⟩
  · rw [after_append]
    exact h' between gold delta rest hrest
  · cases between with
    | nil =>
      rw [List.append_nil] at hsplit
      rw [← hsplit]
      exact h' [] gold delta rest hrest.symm
    | cons e between =>
      obtain ⟨rfl, -⟩ := List.cons.inj hrest
      exact h before gold delta between hsplit

theorem addsUp_goldChanged {gold delta : Nat} (h : c.gold + delta = gold) :
    c.AddsUp [.player (.goldChanged gold delta)] := by
  intro before gold' delta' rest heq
  rcases List.singleton_eq_append_iff.mp heq with ⟨rfl, heq⟩ | ⟨-, hnil⟩
  · cases heq
    exact h
  · cases hnil

/-! ## Turns -/

/-- What is known after what is published of a turn. -/
theorem after_turnEvents (c : Chronicle α) (before : Player) (t : TurnResult α) :
    c.after (Game.turnEvents before t) = { c with
      gold := if t.run.player.gold = before.gold then c.gold else t.run.player.gold
      relics := Player.relicsWithout c.relics t.resolution.rescuedBy
      target := some t.resolution.monsterHp
      ended := t.resolution.phase.isOver || c.ended } := by
  have hrescue : ∀ c : Chronicle α, c.after (t.resolution.rescuedBy.map fun relic =>
      (Event.player (.relicConsumed relic) : Event α)).toList
        = { c with relics := Player.relicsWithout c.relics t.resolution.rescuedBy } := by
    intro c
    cases t.resolution.rescuedBy <;> rfl
  have hhealth : ∀ c : Chronicle α, c.after (if t.run.player.hp = before.hp
      ∧ t.run.player.maxHp = before.maxHp then [] else Game.hpEvents t.run.player) = c := by
    intro c
    split <;> rfl
  have hgold : ∀ c : Chronicle α, c.after (if t.run.player.gold = before.gold then []
      else [(Event.player (.goldChanged t.run.player.gold (t.run.player.gold - before.gold)) :
        Event α)])
        = { c with gold := if t.run.player.gold = before.gold then c.gold
              else t.run.player.gold } := by
    intro c
    split <;> rfl
  have hended : ∀ c : Chronicle α, c.after (if t.resolution.phase.isOver = true
      then [(Event.combat (.ended t.resolution.phase t.resolution.turn) : Event α)] else [])
        = { c with ended := t.resolution.phase.isOver || c.ended } := by
    intro c
    cases t.resolution.phase.isOver <;> rfl
  unfold Game.turnEvents
  dsimp only
  rw [after_append, after_append, after_append, after_append, hended, hgold, hhealth, hrescue]
  rfl

/-- Gold adds up in what is published of a turn that takes none away. -/
theorem addsUp_turnEvents {before : Player} {t : TurnResult α} (h : c.gold = before.gold)
    (hle : before.gold ≤ t.run.player.gold) : c.AddsUp (Game.turnEvents before t) := by
  unfold Game.turnEvents
  dsimp only
  -- gold is told of in one place only, and up to there it is known as it was before
  generalize hfirst : ([.combat (.resolved t.resolution)] : List (Event α))
      ++ (t.resolution.rescuedBy.map fun relic => Event.player (.relicConsumed relic)).toList
      ++ (if t.run.player.hp = before.hp ∧ t.run.player.maxHp = before.maxHp then []
        else Game.hpEvents t.run.player) = first
  have hsilent : c.AddsUp first := by
    refine addsUp_of_silent fun gold delta hmem => ?_
    rw [← hfirst] at hmem
    cases hr : t.resolution.rescuedBy <;> split at hmem <;> simp [hr, Game.hpEvents] at hmem
  have hknown : (c.after first).gold = before.gold := by
    rw [← hfirst, ← h]
    cases hr : t.resolution.rescuedBy <;> split <;> rfl
  refine addsUp_append (addsUp_append hsilent ?_) ?_
  · split
    · exact addsUp_nil _
    · exact addsUp_goldChanged (by omega)
  · cases t.resolution.phase.isOver with
    | true => exact addsUp_combat _ _
    | false => exact addsUp_nil _

/-! ## Agreement with a game -/

/-- **A chronicle tells a game** if it agrees with the game in everything that it speaks of.
Of an encounter it speaks as long as that is open. -/
structure Tells (c : Chronicle α) (g : Game α) : Prop where
  /-- It knows the player's gold. -/
  gold : c.gold = g.run.player.gold
  /-- It knows the player's relics, in their order. -/
  relics : c.relics = g.run.player.relics
  /-- It knows the floor. -/
  floor : c.floor = g.run.progress.floor
  /-- It knows the act. -/
  act : c.act = g.run.progress.act
  /-- It knows the hit points of the monster, and whether the encounter is over. -/
  encounter : ∀ s, g.session = some s → c.target = some s.monster.hp ∧ c.ended = s.isOver

end Chronicle

namespace Game

variable {α : Type} [Scalar α] {g g' : Game α} {c : Chronicle α}

open Chronicle

/-- **Gold stays within its counter**, whatever is done. -/
theorem gold_le_course {m : Move α} {refused : Bool} {events : List (Event α)}
    (hgold : g.run.player.gold ≤ maxCount32) (hcourse : g.Course m refused g' events) :
    g'.run.player.gold ≤ maxCount32 := by
  cases hcourse with
  | deed hm hturn hs hd =>
    cases Scene.becomes_of_perform? hd with
    | edit _ _ | target _ => exact hgold
    | reroll _ => exact (Player.gold_onReroll _).symm ▸ hgold
    | turn _ => exact absurd rfl hturn
    | acquire _ => exact absurd hm (Move.deed?_ne_acquire _ _)
  | turn hs ht =>
    obtain ⟨raw, -, rfl⟩ := Session.submit_eq_ok_iff.mp ht
    exact Nat.le_trans (Nat.le_of_eq (Session.gold_resolve _ _ _ _)) (Nat.min_le_right _ _)
  | acquire hp => exact (Player.gold_addRelic hp).symm ▸ hgold
  | refused _ | look | start _ _ _ | win _ _ | lose _ _ | giveUp => exact hgold

theorem gold_after_le (hgold : g.run.player.gold ≤ maxCount32) (moves : List (Move α)) :
    (g.after moves).run.player.gold ≤ maxCount32 :=
  after_induction hgold (fun _ _ _ _ _ => gold_le_course) moves

/-- **What is published of a turn** keeps a chronicle true. -/
theorem tells_turn (h : c.Tells g) (hgold : g.run.player.gold ≤ maxCount32) {s : Session α}
    {t : TurnResult α} (hs : g.session = some s)
    (ht : s.submit g.run g.settings.balance = .ok t) :
    (c.after (turnEvents g.run.player t)).Tells
        { g with session := some t.session, run := t.run }
      ∧ c.AddsUp (turnEvents g.run.player t) := by
  obtain ⟨raw, haccept, rfl⟩ := Session.submit_eq_ok_iff.mp ht
  have hover := (Session.accept_eq_ok_iff.mp haccept).1
  have hsettles := s.settles_resolve g.run g.settings.balance raw
  have hearned := s.gold_resolve g.run g.settings.balance raw
  refine ⟨?_, addsUp_turnEvents h.gold (by omega)⟩
  rw [after_turnEvents]
  refine ⟨?_, ?_, h.floor, h.act, fun s' hs' => ?_⟩
  · dsimp only
    split
    · next hsame => rw [h.gold, hsame]
    · rfl
  · dsimp only
    rw [h.relics, s.relics_resolve]
  · obtain rfl := Option.some.inj hs'
    rw [Session.isOver, hsettles.phase, hsettles.monster, (h.encounter s hs).2, hover]
    exact ⟨rfl, Bool.or_false _⟩

/-- **Whatever a move publishes** keeps a chronicle true. -/
theorem tells_course {m : Move α} {refused : Bool} {events : List (Event α)} (h : c.Tells g)
    (hgold : g.run.player.gold ≤ maxCount32) (hcourse : g.Course m refused g' events) :
    (c.after events).Tells g' ∧ c.AddsUp events := by
  cases hcourse with
  | refused hevents =>
    rcases hevents with rfl | ⟨turn, fault, rfl⟩
    · exact ⟨h, addsUp_nil c⟩
    · exact ⟨h, addsUp_combat c _⟩
  | look => exact ⟨h, addsUp_nil c⟩
  | @deed _ d s c' hm hturn hs hd =>
    obtain ⟨htarget, hended⟩ := h.encounter s hs
    cases Scene.becomes_of_perform? hd with
    | edit hedit _ =>
      rw [Deed.announcement_of_isEdit hedit]
      refine ⟨⟨h.gold, h.relics, h.floor, h.act, fun s' hs' => ?_⟩, addsUp_nil c⟩
      exact Option.some.inj hs' ▸ ⟨htarget, hended⟩
    | reroll _ =>
      refine ⟨⟨?_, ?_, h.floor, h.act, fun s' hs' => ?_⟩, addsUp_combat c _⟩
      · exact h.gold.trans (Player.gold_onReroll _).symm
      · exact h.relics.trans (Player.relics_onReroll _).symm
      · exact Option.some.inj hs' ▸ ⟨htarget, hended⟩
    | target _ =>
      refine ⟨⟨h.gold, h.relics, h.floor, h.act, fun s' hs' => ?_⟩, addsUp_combat c _⟩
      exact Option.some.inj hs' ▸ ⟨rfl, hended⟩
    | turn _ => exact absurd rfl hturn
    | acquire _ => exact absurd hm (Move.deed?_ne_acquire _ _)
  | turn hs ht => exact tells_turn h hgold hs ht
  | start _ _ hs =>
    obtain ⟨_, _, _, -, -, rfl⟩ := Session.exists_of_start hs
    refine ⟨⟨h.gold, h.relics, h.floor, h.act, fun s' hs' => ?_⟩, addsUp_combat c _⟩
    exact Option.some.inj hs' ▸ ⟨rfl, rfl⟩
  | win _ _ =>
    refine ⟨⟨h.gold, h.relics, rfl, rfl, fun _ hs => nomatch hs⟩, ?_⟩
    exact addsUp_of_silent fun _ _ hmem => by simp at hmem
  | lose _ _ =>
    exact ⟨⟨h.gold, h.relics, h.floor, h.act, fun _ hs => nomatch hs⟩, addsUp_nil c⟩
  | giveUp =>
    have hafter : c.after (g.session.map fun s =>
        (Event.combat (.abandoned s.turn) : Event α)).toList = c := by
      cases g.session <;> rfl
    have hsilent : c.AddsUp (g.session.map fun s =>
        (Event.combat (.abandoned s.turn) : Event α)).toList := by
      cases g.session with
      | none => exact addsUp_nil c
      | some s => exact addsUp_combat c _
    rw [hafter]
    exact ⟨⟨h.gold, h.relics, h.floor, h.act, fun _ hs => nomatch hs⟩, hsilent⟩
  | acquire hp =>
    obtain ⟨-, -, hrelics⟩ := Player.of_addRelic hp
    refine ⟨⟨h.gold.trans (Player.gold_addRelic hp).symm, ?_, h.floor, h.act, h.encounter⟩, ?_⟩
    · exact (congrArg (· ++ [_]) h.relics).trans hrelics.symm
    · exact addsUp_of_silent fun _ _ hmem => by simp [hpEvents] at hmem

/-- **The events tell the whole story**, hit points apart. Whoever has heard every event since
the start of the run knows the player's gold, the relics in their order, the floor and the act;
and as long as an encounter is open, also the hit points of the monster and whether the
encounter is over. It does not matter how the events of the two topics interleave. Every change
of gold that is told is the difference from the gold known before. -/
theorem chronicle_tells {settings : Settings α} {bestiary : Bestiary}
    (h : Game.new settings bestiary = .ok g) (hgold : settings.balance.startingGold ≤ maxCount32)
    (moves : List (Move α)) :
    (∀ events, events.filterMap Event.combat? = (g.eventsOf moves).filterMap Event.combat? →
        events.filterMap Event.player? = (g.eventsOf moves).filterMap Event.player? →
        ((start g.run.progress.modifiers.startingGold).after events).Tells (g.after moves))
      ∧ (start g.run.progress.modifiers.startingGold).AddsUp (g.eventsOf moves) := by
  have hkept := history_induction (g := g)
    (P := fun g' events =>
      ((start g.run.progress.modifiers.startingGold).after events).Tells g'
        ∧ (start g.run.progress.modifiers.startingGold).AddsUp events
        ∧ g'.run.player.gold ≤ maxCount32) ?new ?step moves
  case new =>
    rw [eq_of_new h]
    refine ⟨⟨rfl, rfl, rfl, rfl, fun _ hs => nomatch hs⟩, addsUp_nil _, ?_⟩
    show (if 2 ≤ settings.ascension then settings.balance.startingGold / 2
      else settings.balance.startingGold) ≤ maxCount32
    split <;> omega
  case step =>
    rintro _ _ _ _ _ _ ⟨htells, hadds, hgold⟩ hcourse
    obtain ⟨htells', hadds'⟩ := tells_course htells hgold hcourse
    rw [after_append]
    exact ⟨htells', addsUp_append hadds hadds', gold_le_course hgold hcourse⟩
  refine ⟨fun events hcombat hplayer => ?_, hkept.2.1⟩
  rw [after_eq_topics, hcombat, hplayer, ← after_eq_topics]
  exact hkept.1

/-- A rat is slain in two turns, and the player moves on to a bat. -/
def ratStory : List (Move Rat) :=
  [.grantRelic .alchemistFlask, .startCombat (.monster "rat"), .placeDie ⟨0⟩, .submit,
    .placeDie ⟨4⟩, .placeOperator 0, .placeDie ⟨2⟩, .submit, .finishCombat,
    .startCombat (.monster "bat")]

/-- The story of the rat, as it is told. -/
theorem chronicle_tells_rat :
    ∃ g, Game.new .standard .builtIn = .ok g
      ∧ (start g.run.progress.modifiers.startingGold).after (g.eventsOf ratStory)
        = ⟨65, [.alchemistFlask], 1, 1, some 6, false⟩
      ∧ (Chronicle.mk 65 [.alchemistFlask] 1 1 (some 6) false).Tells (g.after ratStory) := by
  obtain ⟨g, hnew, hknown⟩ : ∃ g, Game.new .standard .builtIn = .ok g
      ∧ (start g.run.progress.modifiers.startingGold).after (g.eventsOf ratStory)
        = ⟨65, [.alchemistFlask], 1, 1, some 6, false⟩ := ⟨_, rfl, by decide +kernel⟩
  have htells := (chronicle_tells hnew (by decide) ratStory).1 _ rfl rfl
  rw [hknown] at htells
  exact ⟨g, hnew, hknown, htells⟩

end Game

end Arithmancy
