import Arithmancy.Proofs.Encounter.Target
import Arithmancy.Proofs.Game.Moves

/-!
# The open encounter

Much of an encounter is written down more than once: the turns that were resolved are counted
by relics and by the number of the turn, and whether the monster is dead can be told from the
phase, from its hit points and from the last report. In every game that is reached all this
agrees (`Game.encounter_agrees`), and it agrees with the events that were published.

Most of it does not depend on what a number is (`Session.Books`). That a monster without hit
points is a dead one does: it rests on the bounds that rounding keeps, from which it follows
that a monster is left with an amount or dead.
-/

namespace Arithmancy

variable {α : Type}

/-! ## Turns that are published -/

/-- The number of turns that were resolved since an encounter started, given the number before
an event. -/
def CombatEvent.countTurn (turns : Nat) : CombatEvent α → Nat
  | .started _ => 0
  | .resolved _ => turns + 1
  | _ => turns

/-- **The number of turns** that some events report, since an encounter started last. -/
def turnsResolved (events : List (Event α)) : Nat :=
  (events.filterMap Event.combat?).foldl CombatEvent.countTurn 0

/-- The reports of the turns since an encounter started, given those before an event. -/
def CombatEvent.addReport (reports : List (Resolution α)) : CombatEvent α → List (Resolution α)
  | .started _ => []
  | .resolved r => reports ++ [r]
  | _ => reports

/-- **The reports of the turns** that some events tell of, since an encounter started last. -/
def turnReports (events : List (Event α)) : List (Resolution α) :=
  (events.filterMap Event.combat?).foldl CombatEvent.addReport []

theorem turnReports_append (events events' : List (Event α)) :
    turnReports (events ++ events')
      = (events'.filterMap Event.combat?).foldl CombatEvent.addReport (turnReports events) := by
  rw [turnReports, List.filterMap_append, List.foldl_append, turnReports]

/-- One report is told by what is published of a turn. -/
theorem turnReports_turnEvents (events : List (Event α)) (before : Player) (t : TurnResult α) :
    turnReports (events ++ Game.turnEvents before t) = turnReports events ++ [t.resolution] := by
  rw [turnReports_append, Game.combat_turnEvents]
  split <;> rfl

/-- Nothing else that is published of a deed tells a report. -/
theorem turnReports_announcement (events : List (Event α)) (d : Deed α) (s : Session α) :
    turnReports (events ++ d.announcement s) = turnReports events := by
  rw [turnReports_append]
  cases d <;> rfl

theorem turnReports_refusal (events : List (Event α)) {events' : List (Event α)}
    (h : IsRefusal events') : turnReports (events ++ events') = turnReports events := by
  rw [turnReports_append]
  rcases h with rfl | ⟨_, _, rfl⟩ <;> rfl

/-- **Turns are counted by their reports.** -/
theorem turnsResolved_eq_length (events : List (Event α)) :
    turnsResolved events = (turnReports events).length := by
  have hevent (reports : List (Resolution α)) (event : CombatEvent α) :
      event.countTurn reports.length = (event.addReport reports).length := by
    cases event with
    | resolved r =>
      rw [CombatEvent.addReport, List.length_append]
      rfl
    | _ => rfl
  rw [turnsResolved, turnReports, ← List.foldl_hom List.length hevent]
  rfl

/-! ## What an encounter keeps of its turns -/

/-- **The books of an encounter** in which some turns were resolved. -/
structure Session.Books (s : Session α) (turns : Nat) : Prop where
  /-- Relics have seen one evaluation in every turn. -/
  evaluations : s.memo.evaluations = turns
  /-- The turn that is under way is the next one. -/
  building : s.phase = .building → s.turn = turns + 1
  /-- Once the encounter is over, the last turn stays. -/
  ended : s.isOver = true → s.turn = turns
  /-- Then the expression is empty. -/
  emptied : s.isOver = true → s.expression = []
  /-- There is a report unless no turn was resolved. -/
  unreported : s.lastResolution = none ↔ turns = 0
  /-- The report is that of the last turn, and of where the encounter stands. -/
  report : ∀ r, s.lastResolution = some r → r.turn = turns ∧ r.phase = s.phase
  /-- The encounter is won if the monster is reported dead, and only then. -/
  slain : s.phase = .victory ↔ ∃ r, s.lastResolution = some r ∧ r.monsterDead = true

namespace Session

/-- As long as no turn was resolved the monster is not dead. -/
theorem Books.ne_victory {s : Session α} (h : s.Books 0) : s.phase ≠ .victory := fun hphase => by
  obtain ⟨r, hr, -⟩ := h.slain.mp hphase
  exact nomatch (h.unreported.mpr rfl).symm.trans hr

variable [Scalar α] {s : Session α} {turns : Nat}

theorem exists_withFreshTray (s : Session α) (p : Player) : ∃ dice rerolls generator,
    s.withFreshTray p
      = { s with dice := dice, rerollsLeft := rerolls, generator := generator } :=
  ⟨_, _, _, rfl⟩

theorem books_of_start {run : Run α} {bestiary : Bestiary} {challenge : Challenge}
    (h : start run bestiary challenge = .ok s) : s.Books 0 := by
  obtain ⟨_, template, generator, -, -, rfl⟩ := exists_of_start h
  obtain ⟨m, conditions, g, hopening⟩ : ∃ m conditions g, startWith run template generator
      = (opening m conditions g).withFreshTray run.player := ⟨_, _, _, rfl⟩
  obtain ⟨dice, rerolls, g', htray⟩ := (opening m conditions g).exists_withFreshTray run.player
  rw [hopening, htray]
  refine ⟨rfl, fun _ => rfl, fun h => ?_, fun h => ?_, iff_of_true rfl rfl, fun _ h => ?_,
    iff_of_false (fun h => ?_) fun ⟨_, h, _⟩ => ?_⟩ <;> cases h

/-- **A turn is entered into the books.** -/
theorem Books.resolve (h : s.Books turns) (hover : s.isOver = false) (run : Run α)
    (balance : Balance α) (raw : α) : (s.resolve run balance raw).session.Books (turns + 1) := by
  have hsettles := s.settles_resolve run balance raw
  have hturn := h.building (isOver_eq_false_iff.mp hover)
  refine ⟨?_, fun hgoes => ?_, fun hends => ?_, fun _ => hsettles.expression, ?_, ?_, ?_⟩
  · rw [hsettles.evaluations, h.evaluations]
  · rw [hsettles.turn, if_neg (by rw [isOver, hgoes]; decide), hturn]
  · rw [hsettles.turn, if_pos hends, hturn]
  · rw [hsettles.report]
    exact iff_of_false (Option.some_ne_none _) (Nat.succ_ne_zero turns)
  · rw [hsettles.report]
    rintro r ⟨⟩
    exact ⟨hsettles.reported.trans hturn, hsettles.phase.symm⟩
  · rw [victory_resolve_iff, hsettles.report]
    refine ⟨fun hdead => ⟨_, rfl, hdead⟩, ?_⟩
    rintro ⟨_, heq, hdead⟩
    exact Option.some.inj heq ▸ hdead

/-- Any other deed leaves the books as they are. -/
theorem Books.of_becomes {c c' : Scene α} {balance : Balance α} {d : Deed α}
    (h : c.session.Books turns) (hturn : d ≠ .submit) (hd : c.Becomes balance d c') :
    c'.session.Books turns := by
  have hgoes (hover : c.session.isOver = false) (hends : c.session.isOver = true) : False :=
    Bool.noConfusion (hover.symm.trans hends)
  cases hd with
  | edit _ hover =>
    exact ⟨h.evaluations, h.building, h.ended,
      fun hends => (hover.resolve_left fun hover => hgoes hover hends).2, h.unreported, h.report,
      h.slain⟩
  | reroll hover =>
    exact ⟨h.evaluations, h.building, h.ended, fun hends => (hgoes hover hends).elim,
      h.unreported, h.report, h.slain⟩
  | target hover =>
    exact ⟨h.evaluations, h.building, h.ended, fun hends => (hgoes hover hends).elim,
      h.unreported, h.report, h.slain⟩
  | turn _ => exact absurd rfl hturn
  | acquire _ => exact h

end Session

/-! ## Hit points -/

open Binary64 (IsAmount beq_iff value?_ofInt_zero)

namespace Session

/-- **A sound encounter**: its books are in order, and its monster has an amount of hit points
left unless it is dead. -/
structure Sound (s : Session Float) (turns : Nat) : Prop where
  /-- The books are in order. -/
  books : s.Books turns
  /-- A monster that is not dead has an amount of hit points left. -/
  amount : s.phase ≠ .victory → IsAmount s.monster.hp
  /-- A monster that is dead has none. -/
  nothing : s.phase = .victory → s.monster.hp = 0

/-- **A turn leaves an encounter sound.** -/
theorem Sound.resolve {s : Session Float} {turns : Nat} (h : s.Sound turns)
    (hover : s.isOver = false) (run : Run Float) (balance : Balance Float) (raw : Float) :
    (s.resolve run balance raw).session.Sound (turns + 1) := by
  have hsettles := s.settles_resolve run balance raw
  have hbefore : s.phase ≠ .victory := by
    rw [isOver_eq_false_iff.mp hover]
    decide
  refine ⟨h.books.resolve hover run balance raw, fun halive => ?_, fun hdead => ?_⟩
  · rw [hsettles.monster]
    exact s.isAmount_resolve run balance raw (h.amount hbefore)
      (Bool.eq_false_iff.mpr fun hdead => halive (victory_resolve_iff.mpr hdead))
  · rw [hsettles.monster]
    exact s.monsterHp_of_monsterDead run balance raw (victory_resolve_iff.mp hdead)

/-- Any other deed leaves an encounter sound. -/
theorem Sound.of_becomes {c c' : Scene Float} {balance : Balance Float} {d : Deed Float}
    {turns : Nat} (h : c.session.Sound turns) (hturn : d ≠ .submit)
    (hd : c.Becomes balance d c') : c'.session.Sound turns := by
  have hbooks := h.books.of_becomes hturn hd
  cases hd with
  | edit _ _ => exact ⟨hbooks, h.amount, h.nothing⟩
  | reroll _ => exact ⟨hbooks, h.amount, h.nothing⟩
  | target hover =>
    refine ⟨hbooks, fun _ => Monster.isAmount_rerollTarget _ _ _ _, fun hphase => ?_⟩
    -- a target is drawn anew only while the encounter goes on
    rw [isOver, show c.session.phase = .victory from hphase] at hover
    cases hover
  | turn _ => exact absurd rfl hturn
  | acquire _ => exact h

/-- **What is written down of an encounter agrees**: the books are in order; while the encounter
goes on both sides live; and the encounter is won if the monster has no hit points left, and
only then. -/
structure Agrees (s : Session Float) (p : Player) (turns : Nat) : Prop extends
    s.Books turns where
  /-- While the encounter goes on the player lives. -/
  alive : s.phase = .building → 0 < p.hp
  /-- While the encounter goes on the monster has hit points left. -/
  standing : s.phase = .building → 0 < s.monster.hp
  /-- The encounter is won if there are none left, and only then. -/
  nothing : s.phase = .victory ↔ (s.monster.hp == 0) = true

end Session

namespace Game

/-! ## Histories -/

/-- **Every move leaves the open encounter sound**, and its turns counted. -/
theorem sound_course {g g' : Game Float} {m : Move Float} {refused : Bool}
    {events events' : List (Event Float)}
    (h : ∀ s, g.session = some s → s.Sound (turnsResolved events))
    (hcourse : g.Course m refused g' events') :
    ∀ s, g'.session = some s → s.Sound (turnsResolved (events ++ events')) := by
  simp only [turnsResolved_eq_length] at h ⊢
  cases hcourse with
  | refused hevents =>
    rw [turnReports_refusal events hevents]
    exact h
  | look =>
    rw [List.append_nil]
    exact h
  | acquire _ =>
    rw [turnReports_append]
    exact h
  | win _ _ => exact fun _ hs => nomatch hs
  | lose _ _ => exact fun _ hs => nomatch hs
  | giveUp => exact fun _ hs => nomatch hs
  | start _ _ hs =>
    rw [turnReports_append]
    have hbooks := Session.books_of_start hs
    refine fun s' hs' => Option.some.inj hs' ▸
      ⟨hbooks, fun _ => Session.isAmount_of_start hs, fun hphase => ?_⟩
    exact absurd hphase hbooks.ne_victory
  | turn hs ht =>
    obtain ⟨raw, haccept, rfl⟩ := Session.submit_eq_ok_iff.mp ht
    rw [turnReports_turnEvents, List.length_append]
    exact fun s' hs' => Option.some.inj hs' ▸
      (h _ hs).resolve (Session.accept_eq_ok_iff.mp haccept).1 _ _ _
  | deed _ hturn hs hd =>
    rw [turnReports_announcement]
    exact fun s' hs' => Option.some.inj hs' ▸
      Session.Sound.of_becomes (h _ hs) hturn (Scene.becomes_of_perform? hd)

variable {settings : Settings Float} {bestiary : Bestiary} {g : Game Float}

/-- **What is written down of the open encounter agrees**, in every game that is reached from a
new one, and it agrees with all that was published on the way. -/
theorem encounter_agrees (hnew : Game.new settings bestiary = .ok g) (moves : List (Move Float))
    {s : Session Float} (hs : (g.after moves).session = some s) :
    s.Agrees (g.after moves).run.player (turnsResolved (g.eventsOf moves)) := by
  have hsound : s.Sound (turnsResolved (g.eventsOf moves)) := by
    refine history_induction
      (P := fun g events => ∀ s, g.session = some s → s.Sound (turnsResolved events))
      ?_ (fun _ _ _ _ _ _ h hcourse => sound_course h hcourse) moves s hs
    rw [eq_of_new hnew]
    exact fun _ hs => nomatch hs
  have hvital := (Reached.after (.new hnew) moves).vital
  refine ⟨hsound.books, fun hphase => hvital.alive s hs (Session.isOver_eq_false_iff.mpr hphase),
    fun hphase => ?_, ?_⟩
  · exact (hsound.amount (by rw [hphase]; decide)).pos
  · constructor
    · intro hphase
      rw [hsound.nothing hphase]
      exact (beq_iff value?_ofInt_zero value?_ofInt_zero).mpr rfl
    · intro hzero
      by_contra hphase
      exact (hsound.amount hphase).ne_zero hzero

/-- The moves of a player who has struck a rat once. -/
def firstStrike : List (Move Float) := [.startCombat (.monster "rat"), .placeDie ⟨0⟩, .submit]

/-- After one turn against a rat everything agrees on one turn. -/
theorem encounter_agrees_rat :
    ∃ g s, Game.new .standard .builtIn = .ok g ∧ (g.after firstStrike).session = some s
      ∧ turnsResolved (g.eventsOf firstStrike) = 1
      ∧ s.Agrees (g.after firstStrike).run.player 1 := by
  obtain ⟨g, hnew, hopen, hturns⟩ : ∃ g : Game Float, Game.new .standard .builtIn = .ok g
      ∧ (g.after firstStrike).session.isSome = true
      ∧ turnsResolved (g.eventsOf firstStrike) = 1 := ⟨_, rfl, by decide +kernel⟩
  obtain ⟨s, hs⟩ := Option.isSome_iff_exists.mp hopen
  exact ⟨g, s, hnew, hs, hturns, hturns ▸ encounter_agrees hnew firstStrike hs⟩

end Game

end Arithmancy
