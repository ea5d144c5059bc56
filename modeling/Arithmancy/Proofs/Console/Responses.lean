import Arithmancy.Console.Dialogue
import Arithmancy.Proofs.Game.Refusal

/-!
# What a command comes to

At a console with an open encounter a command fails, or it shows something, or it makes a move.
Most moves stay in the encounter, and add to what is told in it; one leaves it. This module
says so once (`Console.comesTo_obey`), with all that becomes of the console and all that is
shown; so what is said about dialogues need not look into the commands.

A command that fails has done nothing: the game refuses a move before it changes anything, and
the console asks the game before it shows anything.
-/

namespace Arithmancy

variable {α : Type} [Scalar α]

/-! ## Moves in the open encounter -/

namespace Game

/-- **A deed stays in the open encounter**, and nothing that was told is taken back. -/
theorem Course.exists_sessions {g g' : Game α} {m : Move α} {d : Deed α} {events : List (Event α)}
    (h : g.Course m false g' events) (hm : m.deed? = some d) :
    ∃ s s', g.session = some s ∧ g'.session = some s' ∧ s.log <+: s'.log := by
  cases h with
  | deed _ _ hs hd => exact ⟨_, _, hs, rfl, (Scene.becomes_of_perform? hd).keeps_log⟩
  | turn hs ht =>
    obtain ⟨raw, -, rfl⟩ := Session.submit_eq_ok_iff.mp ht
    exact ⟨_, _, hs, rfl, (Session.settles_resolve _ _ _ raw).log⟩
  | look | start | win | lose | giveUp | acquire => cases hm

variable {g : Game α} {m : Move α} {β : Type} {step : Step α β} {f : β → Reply α}

/-- **A step that is refused** leaves the game as it was. -/
theorem game_of_refusal (hplay : g.play m = step.reply f) (h : (step.reply f).isRefused = true) :
    step.game = g := by
  have hgame := g.allOrNothing_play m (hplay ▸ h)
  rwa [hplay] at hgame

/-- **A step that is not refused** takes one of the courses of its move. -/
theorem course_of_reply (hplay : g.play m = step.reply f) (h : (step.reply f).isRefused = false) :
    g.Course m false step.game step.events := by
  have hcourse := g.course_play m
  rwa [hplay, h] at hcourse

end Game

namespace Console

open Game (Course)

/-! ## What a command comes to -/

/-- Some texts that are shown. -/
def said (texts : List String) : List Passage := texts.map Passage.said

/-- **What a command comes to** at a console where an encounter is open. -/
inductive ComesTo (c : Console α) (s : Session α) : Response α → Prop where
  /-- The command fails. -/
  | fails (message : String) : ComesTo c s (c.refusal message)
  /-- The player leaves. -/
  | leaves : ComesTo c s ⟨c, [], .ok .leaves⟩
  /-- Something is shown. -/
  | shows (texts : List String) : ComesTo c s (c.showing (said texts))
  /-- A move is made in the encounter, and something is shown. What is told of the move has
  not been shown yet. -/
  | plays {m : Move α} {g : Game α} {events : List (Event α)} {s' : Session α}
      (texts : List String) (hcourse : c.game.Course m false g events)
      (hs' : g.session = some s') (hlog : s.log <+: s'.log) :
      ComesTo c s (Console.showing ⟨g, c.shown⟩ (said texts))
  /-- A move is made in the encounter, and all that was told is shown before anything else. -/
  | tells {m : Move α} {g : Game α} {events : List (Event α)} {s' : Session α}
      (texts : List String) (hcourse : c.game.Course m false g events)
      (hs' : g.session = some s') (hlog : s.log <+: s'.log) :
      ComesTo c s (Console.showing ⟨g, s'.log.length⟩
        ((s'.log.drop c.shown).map Passage.told ++ said texts))
  /-- The player gives up. -/
  | givesUp {g : Game α} {events : List (Event α)}
      (hcourse : c.game.Course .giveUp false g events) (hclosed : g.session = none) :
      ComesTo c s (Console.showing ⟨g, c.shown⟩ [])

variable {c : Console α} {s : Session α}

/-- **The response to a step of the game**: what is next, unless the step has a fault. -/
theorem comesTo_respond {β : Type} {m : Move α} {step : Step α β} {f : β → Reply α}
    {next : β → Console α → Response α} (hplay : c.game.play m = step.reply f)
    (h : ∀ b, step.answer = .ok b → c.ComesTo s (next b (c.after step))) :
    c.ComesTo s (c.respond step next) := by
  unfold respond
  cases hstep : step.answer with
  | error fault =>
    have hgame := Game.game_of_refusal hplay (by rw [Step.isRefused, Step.reply, hstep]; rfl)
    rw [after, hgame]
    exact .fails fault.message
  | ok b => exact h b hstep

/-- A look ahead shows what it sees. -/
theorem comesTo_preview : c.ComesTo s (c.execute .preview) := by
  have hgame : c.game.preview.game = c.game := c.game.game_preview
  rw [execute]
  refine comesTo_respond (m := .preview) rfl fun _ _ => ?_
  rw [after, hgame]
  exact .shows [_]

section

variable (hs : c.game.session = some s)

include hs

omit [Scalar α] in
theorem tell_eq :
    c.tell = (⟨c.game, s.log.length⟩, (s.log.drop c.shown).map Passage.told) := by
  rw [tell, hs]

theorem withSession_eq (f : Session α → Response α) : c.withSession f = f s := by
  rw [withSession, hs]

theorem showExpression_eq : c.showExpression = c.showing (said [line (expressionLine s)]) :=
  withSession_eq hs _

theorem showTable_eq : c.showTable = c.showing (said [tableText c.game.run s]) :=
  withSession_eq hs _

/-- **The response to a deed** of the encounter, if it shows some texts whether or not anything
was done. -/
theorem comesTo_deed {β : Type} {m : Move α} {d : Deed α} {step : Step α β} {f : β → Reply α}
    {next : β → Console α → Response α} (hplay : c.game.play m = step.reply f)
    (hm : m.deed? = some d)
    (hshows : ∀ b c' s', c'.game.session = some s' →
      ∃ texts, next b c' = c'.showing (said texts)) :
    c.ComesTo s (c.respond step next) := by
  refine comesTo_respond hplay fun b _ => ?_
  cases hrefused : (step.reply f).isRefused with
  | true =>
    rw [after, Game.game_of_refusal hplay hrefused]
    obtain ⟨texts, htexts⟩ := hshows b c s hs
    exact htexts ▸ .shows texts
  | false =>
    have hcourse := Game.course_of_reply hplay hrefused
    obtain ⟨s₀, s', hs₀, hs', hlog⟩ := hcourse.exists_sessions hm
    obtain rfl := Option.some.inj (hs.symm.trans hs₀)
    obtain ⟨texts, htexts⟩ := hshows b (c.after step) s' hs'
    rw [htexts]
    exact .plays texts hcourse hs' hlog

/-- An edit is followed by the expression. -/
theorem comesTo_edit {β : Type} {m : Move α} {d : Deed α} {step : Step α β} {f : β → Reply α}
    (hplay : c.game.play m = step.reply f) (hm : m.deed? = some d) :
    c.ComesTo s (c.edit step) :=
  comesTo_deed hs hplay hm fun _ _ _ hs' => ⟨_, showExpression_eq hs'⟩

/-- A command on a die fails if there is none at the position. -/
theorem comesTo_withDie {n : Nat} {f : DieId → Response α} (h : ∀ id, c.ComesTo s (f id)) :
    c.ComesTo s (c.withDie n f) := by
  unfold withDie
  rw [withSession_eq hs]
  split
  · exact .fails _
  · exact h _

/-- **A turn** is told before the table is shown, if the encounter goes on; otherwise there is
nothing to show yet. -/
theorem comesTo_submit : c.ComesTo s (c.execute .submit) := by
  have hplay : c.game.play .submit = c.game.submit.reply Reply.resolution := rfl
  rw [execute]
  refine comesTo_respond hplay fun r hr => ?_
  have hcourse := Game.course_of_reply hplay (by rw [Step.isRefused, Step.reply, hr]; rfl)
  obtain ⟨s₀, s', hs₀, hs', hlog⟩ := hcourse.exists_sessions rfl
  obtain rfl := Option.some.inj (hs.symm.trans hs₀)
  unfold showTurn
  split
  · rw [tell_eq (c := c.after c.game.submit) hs']
    dsimp only
    rw [showTable_eq hs']
    exact .tells _ hcourse hs' hlog
  · exact .plays [] hcourse hs' hlog

/-- **What every command comes to.** -/
theorem comesTo_execute (command : Command) : c.ComesTo s (c.execute command) := by
  cases command with
  | help => exact .shows [helpText]
  | table =>
    rw [execute, showTable_eq hs]
    exact .shows _
  | die n => exact comesTo_withDie hs fun id => comesTo_edit hs (m := .placeDie id) rfl rfl
  | card n => exact comesTo_edit hs (m := .placeOperator (n - 1)) rfl rfl
  | remove n => exact comesTo_edit hs (m := .removeToken (n - 1)) rfl rfl
  | move i j => exact comesTo_edit hs (m := .moveToken (i - 1) (j - 1)) rfl rfl
  | clear => exact comesTo_edit hs (m := .clearExpression) rfl rfl
  | hold n =>
    rw [execute]
    exact comesTo_withDie hs fun id =>
      comesTo_deed hs (m := .toggleHold id) rfl rfl fun _ _ _ _ => ⟨[_], rfl⟩
  | reroll =>
    rw [execute]
    refine comesTo_deed hs (m := .reroll) rfl rfl fun rerolled c' s' hs' => ?_
    cases rerolled with
    | true => exact ⟨_, showTable_eq hs'⟩
    | false => exact ⟨[_], rfl⟩
  | bossTarget =>
    rw [execute]
    refine comesTo_deed hs (m := .rerollBossTarget) rfl rfl fun rerolled c' s' _ => ?_
    cases rerolled with
    | true => exact ⟨[], rfl⟩
    | false => exact ⟨[_], rfl⟩
  | preview => exact comesTo_preview
  | submit => exact comesTo_submit hs
  | giveUp => exact .givesUp (Course.giveUp) rfl
  | quit => exact .leaves

/-- **What every line comes to**, read as a command. -/
theorem comesTo_obey (text : String) : c.ComesTo s (c.obey text) := by
  unfold obey
  split
  · exact .fails _
  · exact comesTo_execute hs _

end

/-- **A command that fails has done nothing.** -/
theorem ComesTo.eq_refusal {r : Response α} {message : String} (h : c.ComesTo s r)
    (hflow : r.flow = .error message) : r = c.refusal message := by
  cases h with
  | fails message' =>
    obtain rfl := Except.error.inj hflow
    rfl
  | leaves | shows | plays | tells | givesUp => cases hflow

end Console

end Arithmancy
