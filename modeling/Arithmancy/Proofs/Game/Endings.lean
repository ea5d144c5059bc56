import Arithmancy.Number.Exact
import Arithmancy.Proofs.Game.Course

/-!
# How encounters end in what is told of them

The events of the encounter's topic fall into chapters, one for each encounter: a chapter
begins with the start of an encounter and goes on until the next one starts, or until
nothing more is told. An event is final if it tells that the encounter ended or that the
player walked away from it.

In every chapter nothing is done after a final event, and an encounter that is closed has
been told to have ended once, the way it did. One thing is told that should not be. An
encounter that is over but not yet closed has already ended, and a player who gives up then
is told to walk away from it all the same. The main statement,
`Game.endsOnce_iff`, says that this is the only way for a chapter to have two final events.
-/

namespace Arithmancy

variable {α : Type}

/-! ## Chapters -/

namespace CombatEvent

/-- Whether an event tells that an encounter starts. -/
def isStart : CombatEvent α → Bool
  | started _ => true
  | _ => false

/-- Whether an event tells of something that is done in an encounter: a turn, a reroll of
dice, or a reroll of a target. -/
def isAction : CombatEvent α → Bool
  | resolved _ | rerolled _ _ | bossTargetRerolled _ => true
  | _ => false

/-- Whether an event is final: it tells that the encounter ended, or that the player walked
away from it. -/
def isFinal : CombatEvent α → Bool
  | ended _ _ | abandoned _ => true
  | _ => false

/-- The chapters with one more event. A start opens a chapter; anything else belongs to the
latest one. -/
def enter (chapters : List (List (CombatEvent α))) (e : CombatEvent α) :
    List (List (CombatEvent α)) :=
  if e.isStart then [] :: chapters else chapters.modifyHead (· ++ [e])

end CombatEvent

/-- **The chapters of what is told**, the latest first, each without the start it begins
with. -/
def chapters (events : List (Event α)) : List (List (CombatEvent α)) :=
  (events.filterMap Event.combat?).foldl CombatEvent.enter []

/-- The final events of a chapter. -/
def finals (chapter : List (CombatEvent α)) : List (CombatEvent α) :=
  chapter.filter CombatEvent.isFinal

/-- **A quiet ending**: nothing is done after a final event. -/
def EndsQuietly (chapter : List (CombatEvent α)) : Prop :=
  chapter.Pairwise fun e e' => e.isFinal = true → e'.isAction = false

/-- **Every encounter ends at most once** in what is told. -/
def EndsOnce (events : List (Event α)) : Prop :=
  ∀ chapter ∈ chapters events, (finals chapter).length ≤ 1

theorem finals_append (chapter new : List (CombatEvent α)) :
    finals (chapter ++ new) = finals chapter ++ finals new :=
  List.filter_append _ _

/-- What goes on to end quietly ends quietly, if nothing final was told or nothing is done
any more. -/
theorem EndsQuietly.append {chapter new : List (CombatEvent α)} (h : EndsQuietly chapter)
    (hnew : EndsQuietly new) (hquiet : finals chapter = [] ∨ ∀ e ∈ new, e.isAction = false) :
    EndsQuietly (chapter ++ new) := by
  refine List.pairwise_append.mpr ⟨h, hnew, fun e he e' he' hfinal => ?_⟩
  rcases hquiet with hnone | hquiet
  · exact absurd hfinal (List.filter_eq_nil_iff.mp hnone e he)
  · exact hquiet e' he'

section

variable {events events' : List (Event α)}

theorem chapters_append :
    chapters (events ++ events')
      = (events'.filterMap Event.combat?).foldl CombatEvent.enter (chapters events) := by
  rw [chapters, List.filterMap_append, List.foldl_append, chapters]

theorem foldl_enter_cons (chapter : List (CombatEvent α)) (earlier : List (List (CombatEvent α)))
    {new : List (CombatEvent α)} (hnew : ∀ e ∈ new, e.isStart = false) :
    new.foldl CombatEvent.enter (chapter :: earlier) = (chapter ++ new) :: earlier := by
  induction new generalizing chapter with
  | nil => rw [List.foldl_nil, List.append_nil]
  | cons e new ih =>
    obtain ⟨he, hnew⟩ := List.forall_mem_cons.mp hnew
    have henter : CombatEvent.enter (chapter :: earlier) e = (chapter ++ [e]) :: earlier := by
      rw [CombatEvent.enter, he]
      rfl
    rw [List.foldl_cons, henter, ih (chapter ++ [e]) hnew, List.append_assoc,
      List.singleton_append]

theorem foldl_enter_nil {new : List (CombatEvent α)} (hnew : ∀ e ∈ new, e.isStart = false) :
    new.foldl CombatEvent.enter [] = [] := by
  induction new with
  | nil => rfl
  | cons e new ih =>
    obtain ⟨he, hnew⟩ := List.forall_mem_cons.mp hnew
    have henter : CombatEvent.enter [] e = [] := by
      rw [CombatEvent.enter, he]
      rfl
    rw [List.foldl_cons, henter, ih hnew]

end

/-- The final events of an encounter, as they should be: its end once it is over. -/
def Session.ending (s : Session α) : List (CombatEvent α) :=
  if s.isOver then [.ended s.phase s.turn] else []

theorem Session.length_ending_le (s : Session α) : s.ending.length ≤ 1 := by
  unfold Session.ending
  split
  · exact Nat.le_refl 1
  · exact Nat.zero_le 1

theorem Session.ending_of_isOver_eq_false {s : Session α} (h : s.isOver = false) :
    s.ending = [] := by
  rw [ending, h]
  rfl

theorem Session.ending_of_isOver {s : Session α} (h : s.isOver = true) :
    s.ending = [.ended s.phase s.turn] := by
  rw [ending, h]
  rfl

namespace Game

/-! ## What one move tells -/

/-- **A game agrees with its chapters** if each of them ends quietly, and the final events of
the latest are those that the open encounter should have. -/
structure Chaptered (g : Game α) (events : List (Event α)) : Prop where
  /-- Each chapter ends quietly. -/
  quiet : ∀ chapter ∈ chapters events, EndsQuietly chapter
  /-- The latest chapter is that of the open encounter. -/
  latest : ∀ s, g.session = some s →
    ∃ chapter earlier, chapters events = chapter :: earlier ∧ finals chapter = s.ending

variable {g g' : Game α} {s : Session α} {events events' : List (Event α)}

/-- **What neither starts nor ends an encounter** and tells of nothing that is done changes
no ending. -/
theorem Chaptered.append_idle (h : g.Chaptered events) {new : List (CombatEvent α)}
    (hnew : events'.filterMap Event.combat? = new)
    (hidle : ∀ e ∈ new, e.isStart = false ∧ e.isAction = false ∧ e.isFinal = false)
    (hsession : ∀ s', g'.session = some s' → ∃ s, g.session = some s ∧ s.ending = s'.ending) :
    g'.Chaptered (events ++ events') ∧ (EndsOnce (events ++ events') ↔ EndsOnce events) := by
  have hstart := fun e he => (hidle e he).1
  have hfinals : finals new = [] :=
    List.filter_eq_nil_iff.mpr fun e he => Bool.eq_false_iff.mp (hidle e he).2.2
  have hquiet : EndsQuietly new := List.Pairwise.imp_of_mem (R := fun _ _ => True)
    (fun _ hmem _ _ => (hidle _ hmem).2.1) (List.pairwise_of_forall fun _ _ => trivial)
  cases hchapters : chapters events with
  | nil =>
    have hall : chapters (events ++ events') = [] := by
      rw [chapters_append, hchapters, hnew, foldl_enter_nil hstart]
    refine ⟨⟨?_, fun s' hs' => ?_⟩, ?_⟩
    · rw [hall]
      exact fun _ hmem => nomatch hmem
    · obtain ⟨s, hs, -⟩ := hsession s' hs'
      obtain ⟨_, _, hcons, -⟩ := h.latest s hs
      exact nomatch hchapters.symm.trans hcons
    · rw [EndsOnce, EndsOnce, hall, hchapters]
  | cons chapter earlier =>
    have hall : chapters (events ++ events') = (chapter ++ new) :: earlier := by
      rw [chapters_append, hchapters, hnew, foldl_enter_cons chapter earlier hstart]
    have hsame : finals (chapter ++ new) = finals chapter := by
      rw [finals_append, hfinals, List.append_nil]
    have hold := h.quiet
    rw [hchapters] at hold
    obtain ⟨hchapter, hearlier⟩ := List.forall_mem_cons.mp hold
    refine ⟨⟨?_, fun s' hs' => ?_⟩, ?_⟩
    · rw [hall]
      exact List.forall_mem_cons.mpr
        ⟨hchapter.append hquiet (.inr fun e he => (hidle e he).2.1), hearlier⟩
    · obtain ⟨s, hs, hending⟩ := hsession s' hs'
      obtain ⟨_, _, hcons, hlatest⟩ := h.latest s hs
      obtain ⟨rfl, rfl⟩ := List.cons.inj (hchapters.symm.trans hcons)
      exact ⟨_, _, hall, hsame.trans (hlatest.trans hending)⟩
    · rw [EndsOnce, EndsOnce, hall, hchapters, List.forall_mem_cons, List.forall_mem_cons, hsame]

/-- What tells nothing of an encounter changes no ending. -/
theorem Chaptered.append_silent (h : g.Chaptered events)
    (hsilent : events'.filterMap Event.combat? = [])
    (hsession : ∀ s', g'.session = some s' → ∃ s, g.session = some s ∧ s.ending = s'.ending) :
    g'.Chaptered (events ++ events') ∧ (EndsOnce (events ++ events') ↔ EndsOnce events) :=
  h.append_idle hsilent (fun _ he => nomatch he) hsession

/-- **What is told of the open encounter** adds its final events to those of the latest
chapter. -/
theorem Chaptered.append (h : g.Chaptered events) (hs : g.session = some s)
    {new : List (CombatEvent α)} (hnew : events'.filterMap Event.combat? = new)
    (hstart : ∀ e ∈ new, e.isStart = false) (hquiet : EndsQuietly new)
    (hover : s.isOver = false ∨ ∀ e ∈ new, e.isAction = false)
    (hsession : ∀ s', g'.session = some s' → s.ending ++ finals new = s'.ending) :
    g'.Chaptered (events ++ events')
      ∧ (EndsOnce (events ++ events')
        ↔ EndsOnce events ∧ (s.ending ++ finals new).length ≤ 1) := by
  obtain ⟨chapter, earlier, hchapters, hending⟩ := h.latest s hs
  have hall : chapters (events ++ events') = (chapter ++ new) :: earlier := by
    rw [chapters_append, hchapters, hnew, foldl_enter_cons chapter earlier hstart]
  have hfinals : finals (chapter ++ new) = s.ending ++ finals new := by
    rw [finals_append, hending]
  have hold := h.quiet
  rw [hchapters] at hold
  obtain ⟨hchapter, hearlier⟩ := List.forall_mem_cons.mp hold
  have hbefore : s.isOver = false → finals chapter = [] := fun hover =>
    hending.trans (Session.ending_of_isOver_eq_false hover)
  refine ⟨⟨?_, fun s' hs' => ⟨_, _, hall, hfinals.trans (hsession s' hs')⟩⟩, ?_⟩
  · rw [hall]
    exact List.forall_mem_cons.mpr ⟨hchapter.append hquiet (hover.imp_left hbefore), hearlier⟩
  · rw [EndsOnce, EndsOnce, hall, hchapters, List.forall_mem_cons, List.forall_mem_cons, hfinals,
      hending]
    have hone := s.length_ending_le
    tauto

/-- Something that is done in an encounter that goes on is not final. -/
theorem Chaptered.append_action (h : g.Chaptered events) (hs : g.session = some s)
    (hover : s.isOver = false) {e : CombatEvent α} (he : e.isAction = true) {s' : Session α}
    (hs' : g'.session = some s') (hover' : s'.isOver = false) :
    g'.Chaptered (events ++ [.combat e])
      ∧ (EndsOnce (events ++ [.combat e]) ↔ EndsOnce events) := by
  have hnew : [Event.combat e].filterMap Event.combat? = [e] := rfl
  have hstart : e.isStart = false := by cases e <;> first | rfl | cases he
  have hfinals : finals [e] = [] := by cases e <;> first | rfl | cases he
  have hending := Session.ending_of_isOver_eq_false hover
  refine (h.append hs hnew (List.forall_mem_singleton.mpr hstart)
    (List.pairwise_singleton _ e) (.inl hover) fun s'' hs'' => ?_).imp_right
    fun honce => honce.trans (and_iff_left ?_)
  · obtain rfl := Option.some.inj (hs'.symm.trans hs'')
    rw [hending, hfinals, Session.ending_of_isOver_eq_false hover']
    rfl
  · rw [hending, hfinals]
    exact Nat.zero_le 1

/-- The start of an encounter opens a chapter, in which nothing is final yet. -/
theorem Chaptered.start (h : g.Chaptered events) (hover : s.isOver = false)
    (hs : g'.session = some s) (summary : EncounterSummary α) :
    g'.Chaptered (events ++ [.combat (.started summary)])
      ∧ (EndsOnce (events ++ [.combat (.started summary)]) ↔ EndsOnce events) := by
  have hall : chapters (events ++ [.combat (.started summary)]) = [] :: chapters events :=
    chapters_append
  refine ⟨⟨?_, fun s' hs' => ⟨_, _, hall, ?_⟩⟩, ?_⟩
  · rw [hall]
    exact List.forall_mem_cons.mpr ⟨List.Pairwise.nil, h.quiet⟩
  · obtain rfl := Option.some.inj (hs.symm.trans hs')
    exact (Session.ending_of_isOver_eq_false hover).symm
  · rw [EndsOnce, EndsOnce, hall, List.forall_mem_cons]
    exact and_iff_right (Nat.zero_le 1)

/-- **A player walks away too late** from an encounter that is over but not yet closed. -/
def WalksAwayLate (g : Game α) (m : Move α) : Prop :=
  m = .giveUp ∧ ∃ s, g.session = some s ∧ s.isOver = true

/-- **A player who gives up** is told to walk away from the open encounter, also when that has
ended. -/
theorem chaptered_giveUp (h : g.Chaptered events) (hnone : g'.session = none) :
    g'.Chaptered (events ++ (g.session.map fun s => Event.combat (.abandoned s.turn)).toList)
      ∧ (EndsOnce (events ++ (g.session.map fun s => Event.combat (.abandoned s.turn)).toList)
        ↔ EndsOnce events ∧ ¬g.WalksAwayLate .giveUp) := by
  have hclosed {P : Session α → Prop} : ∀ s', g'.session = some s' → P s' := fun s' hs' =>
    nomatch hnone.symm.trans hs'
  cases hs : g.session with
  | none =>
    refine (h.append_silent rfl hclosed).imp_right fun honce =>
      honce.trans (and_iff_left ?_).symm
    rintro ⟨-, s, hs', -⟩
    exact nomatch hs.symm.trans hs'
  | some s =>
    have hnew : [Event.combat (CombatEvent.abandoned (α := α) s.turn)].filterMap Event.combat?
        = [.abandoned s.turn] := rfl
    refine (h.append hs hnew (List.forall_mem_singleton.mpr rfl) (List.pairwise_singleton _ _)
      (.inr (List.forall_mem_singleton.mpr rfl)) hclosed).imp_right
      fun honce => honce.trans (and_congr_right' ?_)
    have hlate : g.WalksAwayLate .giveUp ↔ s.isOver = true := by
      refine ⟨?_, fun hover => ⟨rfl, s, hs, hover⟩⟩
      rintro ⟨-, s', hs', hover⟩
      obtain rfl := Option.some.inj (hs.symm.trans hs')
      exact hover
    rw [hlate]
    cases hover : s.isOver with
    | false =>
      rw [Session.ending_of_isOver_eq_false hover]
      exact iff_of_true (Nat.le_refl 1) nofun
    | true =>
      rw [Session.ending_of_isOver hover]
      exact iff_of_false (fun hle => nomatch hle) fun hnot => hnot rfl

variable [Scalar α] {m : Move α} {refused : Bool}

/-- **What is told of a turn** ends with the end of the encounter, if it is over. -/
theorem chaptered_turn (h : g.Chaptered events) (hs : g.session = some s) {t : TurnResult α}
    (ht : s.submit g.run g.settings.balance = .ok t) :
    Chaptered { g with session := some t.session, run := t.run }
        (events ++ turnEvents g.run.player t)
      ∧ (EndsOnce (events ++ turnEvents g.run.player t) ↔ EndsOnce events) := by
  obtain ⟨raw, haccept, rfl⟩ := Session.submit_eq_ok_iff.mp ht
  have hover := (Session.accept_eq_ok_iff.mp haccept).1
  have hsettles := s.settles_resolve g.run g.settings.balance raw
  have hending := Session.ending_of_isOver_eq_false hover
  set t := s.resolve g.run g.settings.balance raw
  have hphase : t.session.isOver = t.resolution.phase.isOver := by
    rw [Session.isOver, hsettles.phase]
  cases hends : t.resolution.phase.isOver with
  | false =>
    have hnew : (turnEvents g.run.player t).filterMap Event.combat?
        = [.resolved t.resolution] := by
      rw [combat_turnEvents, hends]
      rfl
    refine (h.append hs hnew (fun _ he => List.mem_singleton.mp he ▸ rfl)
      (List.pairwise_singleton _ _) (.inl hover) fun s' hs' => ?_).imp_right
      fun honce => honce.trans (and_iff_left ?_)
    · obtain rfl := Option.some.inj hs'
      rw [hending, Session.ending_of_isOver_eq_false (hphase.trans hends)]
      rfl
    · rw [hending]
      exact Nat.zero_le 1
  | true =>
    have hnew : (turnEvents g.run.player t).filterMap Event.combat?
        = [.resolved t.resolution, .ended t.resolution.phase t.resolution.turn] := by
      rw [combat_turnEvents, hends]
      rfl
    have hquiet : EndsQuietly [CombatEvent.resolved t.resolution,
        .ended t.resolution.phase t.resolution.turn] :=
      List.pairwise_pair.mpr fun _ => rfl
    refine (h.append hs hnew ?_ hquiet (.inl hover) fun s' hs' => ?_).imp_right
      fun honce => honce.trans (and_iff_left ?_)
    · exact List.forall_mem_cons.mpr ⟨rfl, List.forall_mem_singleton.mpr rfl⟩
    · obtain rfl := Option.some.inj hs'
      rw [hending, Session.ending_of_isOver (hphase.trans hends), hsettles.phase,
        hsettles.turn, if_pos (hphase.trans hends), hsettles.reported]
      rfl
    · rw [hending]
      exact Nat.le_refl 1

/-- **Whatever a move tells** leaves a game in agreement with its chapters, and ends no
encounter a second time unless the player walks away too late. -/
theorem chaptered_course (h : g.Chaptered events) (hcourse : g.Course m refused g' events') :
    g'.Chaptered (events ++ events')
      ∧ (EndsOnce (events ++ events')
        ↔ EndsOnce events ∧ ¬(refused = false ∧ g.WalksAwayLate m)) := by
  -- only a player who gives up walks away too late
  have htimely (hwalks : refused = false → m ≠ .giveUp) {P Q : Prop} (hiff : P ↔ Q) :
      P ↔ Q ∧ ¬(refused = false ∧ g.WalksAwayLate m) :=
    hiff.trans (and_iff_left fun hlate => hwalks hlate.1 hlate.2.1).symm
  have hsame : ∀ s, g.session = some s → ∃ s', g.session = some s' ∧ s'.ending = s.ending :=
    fun s hs => ⟨s, hs, rfl⟩
  cases hcourse with
  | refused hevents =>
    rcases hevents with rfl | ⟨turn, fault, rfl⟩
    · exact And.imp_right (htimely nofun) (h.append_silent rfl hsame)
    · have hnew : [Event.combat (CombatEvent.rejected turn fault)].filterMap Event.combat?
          = [.rejected turn fault] := rfl
      exact And.imp_right (htimely nofun)
        (h.append_idle hnew (List.forall_mem_singleton.mpr ⟨rfl, rfl, rfl⟩) hsame)
  | look => exact And.imp_right (htimely nofun) (h.append_silent rfl hsame)
  | acquire _ => exact And.imp_right (htimely nofun) (h.append_silent rfl hsame)
  | win _ _ => exact And.imp_right (htimely nofun) (h.append_silent rfl fun _ hs => nomatch hs)
  | lose _ _ => exact And.imp_right (htimely nofun) (h.append_silent rfl fun _ hs => nomatch hs)
  | start _ _ hs =>
    obtain ⟨_, _, _, -, -, rfl⟩ := Session.exists_of_start hs
    exact And.imp_right (htimely nofun) (h.start rfl rfl _)
  | turn hs ht => exact And.imp_right (htimely nofun) (chaptered_turn h hs ht)
  | deed hm hturn hs hd =>
    have hwalks : m ≠ .giveUp := by
      rintro rfl
      cases hm
    cases Scene.becomes_of_perform? hd with
    | edit hedit _ =>
      rw [Deed.announcement_of_isEdit hedit]
      refine And.imp_right (htimely fun _ => hwalks) (h.append_silent rfl fun s' hs' => ?_)
      exact ⟨_, hs, Option.some.inj hs' ▸ rfl⟩
    | reroll hover =>
      exact And.imp_right (htimely fun _ => hwalks) (h.append_action hs hover rfl rfl hover)
    | target hover =>
      exact And.imp_right (htimely fun _ => hwalks) (h.append_action hs hover rfl rfl hover)
    | turn _ => exact absurd rfl hturn
    | acquire _ => exact absurd hm (Move.deed?_ne_acquire _ _)
  | giveUp =>
    refine And.imp_right (fun honce => honce.trans (and_congr_right' ?_))
      (chaptered_giveUp h rfl)
    rw [eq_self, true_and]

/-! ## Histories -/

/-- One more move ends no encounter a second time unless the player walks away too late. -/
theorem endsOnce_concat_iff {g : Game α} {moves : List (Move α)}
    (h : (g.after moves).Chaptered (g.eventsOf moves)) (m : Move α) :
    EndsOnce (g.eventsOf (moves ++ [m]))
      ↔ EndsOnce (g.eventsOf moves) ∧ ¬(g.after moves).WalksAwayLate m := by
  rw [eventsOf_concat, (chaptered_course h (course_play _ m)).2]
  refine and_congr_right' (not_congr ⟨fun hlate => hlate.2, fun hlate => ⟨?_, hlate⟩⟩)
  rw [hlate.1]
  rfl

theorem chaptered_after {settings : Settings α} {bestiary : Bestiary}
    (hnew : Game.new settings bestiary = .ok g) (moves : List (Move α)) :
    (g.after moves).Chaptered (g.eventsOf moves) := by
  refine history_induction (P := Chaptered) ?_
    (fun _ _ _ _ _ _ h hcourse => (chaptered_course h hcourse).1) moves
  rw [eq_of_new hnew]
  exact ⟨fun _ hmem => (nomatch hmem), fun _ hs => nomatch hs⟩

omit [Scalar α] in
/-- **An encounter that is closed** is over, and ended the way the answer says. -/
theorem exists_of_finishCombat {phase : Phase} (h : g.finishCombat.answer = .ok phase) :
    ∃ s, g.session = some s ∧ s.isOver = true ∧ s.phase = phase := by
  cases hs : g.session with
  | none =>
    rw [finishCombat, onSession, hs] at h
    cases h
  | some s =>
    rw [finishCombat, onSession, hs] at h
    dsimp only at h
    cases hover : s.isOver with
    | false =>
      rw [hover, if_pos (by decide)] at h
      cases h
    | true =>
      rw [hover, if_neg (by decide)] at h
      refine ⟨s, rfl, hover, ?_⟩
      split at h <;> exact Except.ok.inj h

/-- **Encounters end once, quietly, and before they are closed.** In all that is told of a
run, nothing is done in an encounter after it was told to have ended or to have been left.
An encounter is told to have ended or to have been left at most once, exactly if the player
never gives up while an encounter is over but not yet closed. And when an encounter is
closed, what was told of it has one final event, which is its end as the answer gives it. -/
theorem endsOnce_iff {settings : Settings α} {bestiary : Bestiary}
    (hnew : Game.new settings bestiary = .ok g) (moves : List (Move α)) :
    (∀ chapter ∈ chapters (g.eventsOf moves), EndsQuietly chapter)
      ∧ (EndsOnce (g.eventsOf moves)
        ↔ ∀ ms m, ms ++ [m] <+: moves → ¬(g.after ms).WalksAwayLate m)
      ∧ ∀ phase, (g.after moves).finishCombat.answer = .ok phase →
        ∃ chapter earlier turns, chapters (g.eventsOf moves) = chapter :: earlier
          ∧ finals chapter = [.ended phase turns] := by
  refine ⟨(chaptered_after hnew moves).quiet, ?_, fun phase hfinish => ?_⟩
  · induction moves using List.reverseRecOn with
    | nil =>
      refine iff_of_true (fun _ hmem => nomatch hmem) fun ms m hpre => ?_
      cases List.append_eq_nil_iff.mp (List.prefix_nil.mp hpre) |>.2
    | append_singleton moves m ih =>
      rw [endsOnce_concat_iff (chaptered_after hnew moves) m, ih]
      constructor
      · rintro ⟨hbefore, htimely⟩ ms m' hpre
        rcases List.prefix_concat_iff.mp hpre with hlast | hpre
        · obtain ⟨rfl, hm⟩ := List.append_inj' hlast rfl
          obtain rfl := List.singleton_inj.mp hm
          exact htimely
        · exact hbefore ms m' hpre
      · intro hall
        exact ⟨fun ms m' hpre => hall ms m' (hpre.trans (List.prefix_append _ _)),
          hall moves m List.prefix_rfl⟩
  · obtain ⟨s, hs, hover, rfl⟩ := exists_of_finishCombat hfinish
    obtain ⟨chapter, earlier, hchapters, hfinals⟩ := (chaptered_after hnew moves).latest s hs
    exact ⟨chapter, earlier, s.turn, hchapters,
      hfinals.trans (Session.ending_of_isOver hover)⟩

/-- The moves of a player who slays a rat in two turns. -/
def ratSlain : List (Move Float) :=
  [.startCombat (.monster "rat"), .placeDie ⟨0⟩, .submit, .placeDie ⟨4⟩, .placeOperator 0,
    .placeDie ⟨2⟩, .submit]

/-- When the fight against the rat is closed, its end was told once. -/
theorem endsOnce_rat :
    ∃ g, Game.new .standard .builtIn = .ok g ∧ EndsOnce (g.eventsOf ratSlain)
      ∧ (g.after ratSlain).finishCombat.answer = .ok .victory
      ∧ ∃ chapter earlier turns, chapters (g.eventsOf ratSlain) = chapter :: earlier
        ∧ finals chapter = [.ended .victory turns] := by
  obtain ⟨g, hnew, hwon⟩ : ∃ g : Game Float, Game.new .standard .builtIn = .ok g
      ∧ (g.after ratSlain).finishCombat.answer = .ok .victory := ⟨_, rfl, by decide +kernel⟩
  obtain ⟨-, honce, hclosed⟩ := endsOnce_iff hnew ratSlain
  refine ⟨g, hnew, honce.mpr fun ms m hpre hlate => ?_, hwon, hclosed _ hwon⟩
  -- nobody gives up
  obtain rfl := hlate.1
  have hmem : .giveUp ∈ ratSlain := hpre.subset (by simp)
  exact absurd hmem (by decide)

/-- **A player who gives up after the victory** is told to walk away from a rat that is
dead. -/
theorem slain_then_abandoned :
    ∃ g : Game Float, Game.new .standard .builtIn = .ok g
      ∧ (chapters (g.eventsOf (ratSlain ++ [.giveUp]))).map finals
        = [[.ended .victory 2, .abandoned 2]]
      ∧ ¬EndsOnce (g.eventsOf (ratSlain ++ [.giveUp])) := by
  obtain ⟨g, hnew, hfinals⟩ : ∃ g : Game Float, Game.new .standard .builtIn = .ok g
      ∧ (chapters (g.eventsOf (ratSlain ++ [.giveUp]))).map finals
        = [[.ended .victory 2, .abandoned 2]] := ⟨_, rfl, by decide +kernel⟩
  refine ⟨g, hnew, hfinals, fun honce => ?_⟩
  obtain ⟨chapter, hmem, htwo⟩ := List.mem_map.mp (hfinals ▸ List.mem_singleton_self _)
  have hle := honce chapter hmem
  rw [htwo] at hle
  exact nomatch hle

end Game

end Arithmancy
