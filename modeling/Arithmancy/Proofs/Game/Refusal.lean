import Arithmancy.Proofs.Game.Moves

/-!
# Refused moves change nothing

A move that is refused – with a fault, or with the answer that nothing was done – leaves
the game exactly as it was, and so does a look ahead. Such moves are **idle**. Because
the answer to a move depends on the game alone, idle moves can be struck out of a
history: the others are answered as before, publish what they published, and lead to the
same game (`Game.play_busy`).
-/

namespace Arithmancy

variable {α : Type}

/-! ## Refusals -/

/-- **A step is all or nothing** if it leaves the game alone when it is refused. -/
def Step.AllOrNothing (g : Game α) (s : Step α (Reply α)) : Prop := s.isRefused = true → s.game = g

namespace Game

variable [Scalar α]

/-- **A refused move leaves the game as it was.** -/
theorem allOrNothing_play (g : Game α) (m : Move α) : (g.play m).AllOrNothing g := by
  intro hrefused
  have hleads := g.leadsTo_play m
  rw [hrefused] at hleads
  exact game_of_refused hleads

/-- **A look ahead leaves the game as it was.** -/
theorem game_preview (g : Game α) : (g.play .preview).game = g :=
  game_of_look (g.leadsTo_play .preview)

/-! ## Submissions -/

/-- A submission that is not refused is made in an open encounter, and reported. -/
theorem exists_report_of_isOk {g : Game α} (h : g.submit.answer.isOk = true) :
    ∃ s r, g.session = some s ∧ g.submit.answer = .ok r := by
  cases hs : g.session with
  | none =>
    rw [submit, onSession, hs] at h
    cases h
  | some s =>
    cases hr : g.submit.answer with
    | error fault =>
      rw [hr] at h
      cases h
    | ok r => exact ⟨s, r, rfl, rfl⟩

section

variable {g : Game α} {s : Session α} (hs : g.session = some s)

include hs

theorem submit_of_error {fault : SubmissionFault α}
    (h : s.submit g.run g.settings.balance = .error fault) :
    g.submit = ⟨.error (.submission fault), g, [.combat (.rejected s.turn fault)]⟩ := by
  rw [submit, onSession, hs]
  dsimp only
  rw [h]

theorem submit_of_ok {t : TurnResult α} (h : s.submit g.run g.settings.balance = .ok t) :
    g.submit = ⟨.ok t.resolution, { g with session := some t.session, run := t.run },
      turnEvents g.run.player t⟩ := by
  rw [submit, onSession, hs]
  dsimp only
  rw [h]

/-- A submission on an open encounter is refused for the first thing in its way. -/
theorem submit_answer_eq_error_iff {fault : GameFault α} :
    g.submit.answer = .error fault ↔ ∃ f, fault = .submission f ∧ s.Refuses f := by
  cases hsubmit : s.submit g.run g.settings.balance with
  | error f =>
    rw [submit_of_error hs hsubmit]
    constructor
    · intro h
      exact ⟨f, (Except.error.inj h).symm, Session.submit_eq_error_iff.mp hsubmit⟩
    · rintro ⟨f', rfl, hf'⟩
      rw [Session.submit_eq_error_iff.mpr hf'] at hsubmit
      rw [Except.error.inj hsubmit]
  | ok t =>
    rw [submit_of_ok hs hsubmit]
    refine ⟨nofun, ?_⟩
    rintro ⟨f, -, hf⟩
    rw [Session.submit_eq_error_iff.mpr hf] at hsubmit
    cases hsubmit

/-- **A submission that is not refused** resolves a turn, and answers with its report. -/
theorem exists_turn_of_submit {r : Resolution α} (h : g.submit.answer = .ok r) :
    ∃ t, s.submit g.run g.settings.balance = .ok t ∧ r = t.resolution
      ∧ g.submit.game = { g with session := some t.session, run := t.run } := by
  cases hsubmit : s.submit g.run g.settings.balance with
  | error f =>
    rw [submit_of_error hs hsubmit] at h
    cases h
  | ok t =>
    rw [submit_of_ok hs hsubmit] at h ⊢
    exact ⟨t, rfl, (Except.ok.inj h).symm, rfl⟩

theorem exists_of_submit_answer {r : Resolution α} (h : g.submit.answer = .ok r) :
    ∃ t, s.submit g.run g.settings.balance = .ok t
      ∧ g.submit.game = { g with session := some t.session, run := t.run } := by
  obtain ⟨t, hsubmit, -, hgame⟩ := exists_turn_of_submit hs h
  exact ⟨t, hsubmit, hgame⟩

end

/-! ## Striking out idle moves -/

/-- **Whether a move is idle**: a look ahead, or refused. -/
def isIdle (m : Move α) (s : Step α (Reply α)) : Bool :=
  match m with
  | .preview => true
  | _ => s.isRefused

theorem game_of_isIdle {g : Game α} {m : Move α} (h : isIdle m (g.play m) = true) :
    (g.play m).game = g := by
  cases m with
  | preview => exact g.game_preview
  | _ => exact g.allOrNothing_play _ h

/-- **The moves that are not idle** in the course of some moves, with their steps. -/
def busy (g : Game α) (moves : List (Move α)) : List (Move α × Step α (Reply α)) :=
  (moves.zip (g.playAll moves)).filter fun p => !isIdle p.1 p.2

/-- **Idle moves can be struck out**: what is left leads to the same game, by the same
steps. -/
theorem play_busy (g : Game α) (moves : List (Move α)) :
    g.after ((g.busy moves).map Prod.fst) = g.after moves
      ∧ g.playAll ((g.busy moves).map Prod.fst) = (g.busy moves).map Prod.snd := by
  induction moves generalizing g with
  | nil => exact ⟨rfl, rfl⟩
  | cons m moves ih =>
    obtain ⟨hafter, hplay⟩ := ih (g.play m).game
    cases hidle : isIdle m (g.play m) with
    | true =>
      -- the game is the same after the move, so the moves after it meet the same game
      have hbusy : g.busy (m :: moves) = (g.play m).game.busy moves := by
        rw [busy, playAll, List.zip_cons_cons, List.filter_cons_of_neg (by rw [hidle]; decide)]
        rfl
      rw [game_of_isIdle hidle] at hbusy hafter hplay
      rw [hbusy]
      refine ⟨hafter.trans ?_, hplay⟩
      rw [after, after, List.foldl_cons, game_of_isIdle hidle]
    | false =>
      have hbusy : g.busy (m :: moves) = (m, g.play m) :: (g.play m).game.busy moves := by
        rw [busy, playAll, List.zip_cons_cons, List.filter_cons_of_pos (by rw [hidle]; decide)]
        rfl
      rw [hbusy]
      exact ⟨hafter, congrArg (g.play m :: ·) hplay⟩

/-! ## All or nothing -/

/-- **Operations are all or nothing.** A move that is refused, and every look ahead,
leaves the game as it was. A submission on an open encounter is refused for the first
thing in its way, if there is one; otherwise it spends one turn. So idle moves can be
struck out of every history. -/
theorem refused_changes_nothing (g : Game α) :
    (∀ m, (g.play m).isRefused = true ∨ m = .preview → (g.play m).game = g)
      ∧ (∀ s, g.session = some s → ∀ fault,
        g.submit.answer = .error fault ↔ ∃ f, fault = .submission f ∧ s.Refuses f)
      ∧ (∀ s r, g.session = some s → g.submit.answer = .ok r →
        ∃ s', g.submit.game.session = some s'
          ∧ g.submit.game.run.progress.tally.turnsPlayed = g.run.progress.tally.turnsPlayed + 1
          ∧ s'.memo.evaluations = s.memo.evaluations + 1 ∧ s'.expression = []
          ∧ (s'.isOver = true ∧ s'.turn = s.turn ∨ s'.isOver = false ∧ s'.turn = s.turn + 1))
      ∧ ∀ moves, g.after ((g.busy moves).map Prod.fst) = g.after moves
        ∧ (g.playAll ((g.busy moves).map Prod.fst)).map (·.answer)
          = (g.busy moves).map fun p => p.2.answer := by
  refine ⟨fun m hm => ?_, fun s hs _ => submit_answer_eq_error_iff hs, fun s r hs hr => ?_,
    fun moves => ?_⟩
  · rcases hm with hm | rfl
    · exact g.allOrNothing_play m hm
    · exact g.game_preview
  · obtain ⟨t, ht, hgame⟩ := exists_of_submit_answer hs hr
    obtain ⟨hturns, hspent⟩ := Session.spent_of_submit ht
    rw [hgame]
    exact ⟨t.session, rfl, hturns, hspent⟩
  · obtain ⟨hafter, hplay⟩ := g.play_busy moves
    refine ⟨hafter, ?_⟩
    rw [hplay, List.map_map]
    rfl

end Game

end Arithmancy
