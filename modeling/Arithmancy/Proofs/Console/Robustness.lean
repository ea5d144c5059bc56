import Arithmancy.Proofs.Console.Rounds
import Arithmancy.Proofs.Game.NextEncounter

/-!
# No script breaks a dialogue off

A dialogue breaks off if the encounter that awaits cannot be started, or if an encounter that is
over cannot be closed. With the monsters that the game comes with neither happens, whatever is
typed (`Console.withstands_every_script`). The first rests on what is settled in every game
that is reached: there are dice, and there is a monster to fight on each floor. The second needs
no more than that an encounter is closed when it is over, and not before.

A command that fails does no harm either. It is refused before anything is done, and so the
console after it is the one before it, but for the message.
-/

namespace Arithmancy

/-! ## Positions -/

namespace Console.Command

/-- The positions that a command names. -/
def positions : Command → List Nat
  | die n | card n | remove n | hold n => [n]
  | move m n => [m, n]
  | _ => []

variable {verb : String} {words : List String} {command : Command}

/-- **Positions are counted from one.** -/
theorem pos_of_position {n : Nat} {rest : List String}
    (h : position verb words = .ok (n, rest)) : 1 ≤ n := by
  unfold position at h
  split at h
  · cases h
  · split at h
    · cases h
    · cases h
    · obtain ⟨rfl, -⟩ := Prod.mk.inj (Except.ok.inj h)
      exact Nat.succ_pos _

theorem pos_of_withPosition {make : Nat → Command} (hmake : ∀ n, (make n).positions = [n])
    (h : withPosition verb words make = .ok command) : ∀ n ∈ command.positions, 1 ≤ n := by
  unfold withPosition at h
  cases hn : position verb words with
  | error fault =>
    rw [hn] at h
    cases h
  | ok read =>
    rw [hn] at h
    obtain rfl := Except.ok.inj h
    rw [hmake]
    exact List.forall_mem_singleton.mpr (pos_of_position hn)

theorem pos_of_withPositions (h : withPositions verb words move = .ok command) :
    ∀ n ∈ command.positions, 1 ≤ n := by
  unfold withPositions at h
  cases hm : position verb words with
  | error fault =>
    rw [hm] at h
    cases h
  | ok first =>
    rw [hm] at h
    change (position verb first.2 >>= fun second => _) = _ at h
    cases hn : position verb first.2 with
    | error fault =>
      rw [hn] at h
      cases h
    | ok second =>
      rw [hn] at h
      obtain rfl := Except.ok.inj h
      exact List.forall_mem_cons.mpr
        ⟨pos_of_position hm, List.forall_mem_singleton.mpr (pos_of_position hn)⟩

/-- **No command names a position before the first.** -/
theorem pos_of_read {text : String} (h : read text = .ok command) :
    ∀ n ∈ command.positions, 1 ≤ n := by
  unfold read at h
  split at h
  · cases h
  · unfold ofWords at h
    -- a verb asks for one position, for two, or for none, or it is unknown
    split at h <;> first
      | exact pos_of_withPosition (fun _ => rfl) h
      | exact pos_of_withPositions h
      | cases h; exact fun _ hn => nomatch hn
      | cases h

end Console.Command

variable {α : Type} [Scalar α]

namespace Console

variable {c c' : Console α} {settings : Settings α}

/-! ## Failing commands -/

/-- **A command that fails at a current console** is reported, and nothing else happens. A blank
line is not even reported. -/
theorem Current.answer_of_error (hc : c.Current) {s : Session α} (hs : c.game.session = some s)
    {text message : String} (h : (c.obey text).flow = .error message) :
    c.answer text
      = ⟨c, if text.toList.all isBlank then [] else [complaint message], .goesOn⟩ := by
  have hobey : c.obey text = c.refusal message := (comesTo_obey hs text).eq_refusal h
  unfold answer
  split
  · rfl
  · rw [hobey]
    exact hc.settle_eq [complaint message]

/-! ## Whole dialogues -/

/-- With the monsters that the game comes with, the encounter that awaits never fails to open. -/
theorem opening_ne_failed (h : c.game.Settled settings .builtIn) (fault : GameFault α) :
    c.opening ≠ .failed fault := by
  intro hopening
  obtain ⟨hclosed, hlive, hrefused⟩ := startCombat_of_opening_eq_failed hopening
  obtain ⟨s, hs, -⟩ := Game.exists_startCombat_nextChallenge h hclosed hlive
  exact nomatch hrefused.symm.trans hs

/-- **With the monsters that the game comes with** a dialogue never breaks off. -/
theorem failure_converse (h : c.game.Settled settings .builtIn) (lines : List String) :
    (c.converse lines).failure = none := by
  have step : ∀ g m g' events, Game.Settled settings .builtIn g → g.Course m false g' events →
      Game.Settled settings .builtIn g' := fun _ _ _ _ hg hcourse => hg.of_course hcourse
  induction lines generalizing c with
  | nil =>
    unfold converse
    cases hopening : c.opening with
    | finished output => rfl
    | ready c' output => rfl
    | failed fault => exact absurd hopening (opening_ne_failed h fault)
  | cons text rest ih =>
    unfold converse
    cases hopening : c.opening with
    | finished output => rfl
    | failed fault => exact absurd hopening (opening_ne_failed h fault)
    | ready c' output =>
      have hopens := opens_of_opening_eq_ready hopening
      obtain ⟨s, hs⟩ := hopens.exists_session
      have hsettled := keeps_answer step hs text (hopens.keeps step h)
      show (Transcript.after _ _).failure = none
      dsimp only
      cases hsequel : (c'.answer text).sequel with
      | goesOn => exact ih hsettled
      | leaves => rfl
      | breaksOff fault => exact absurd hsequel (sequel_answer hs text fault)

/-- **A dialogue withstands every script**, from whatever point of a run it sets out, with the
monsters that the game comes with. It does not break off: on every floor that is reached the
encounter that awaits can be started, and every encounter that is over can be closed. At each
prompt, the positions that are read from the line are counted from one, and if the line fails as
a command, then the console is left alone by it; and if the dialogue sets out between two
encounters, that is all that happens, and the failure is reported unless the line is blank. -/
theorem withstands_every_script {g : Game α} (hnew : Game.new settings .builtIn = .ok g)
    (moves : List (Move α)) (script : String) :
    ((Console.new (g.after moves)).perform script).failure = none
      ∧ ((g.after moves).session = none → (g.after moves).isRunOver = false →
        ∃ s, ((g.after moves).startCombat (g.after moves).nextChallenge).answer = .ok s)
      ∧ ∀ c text, (c, some text) ∈ (Console.new (g.after moves)).prompts (scriptLines script) →
        (∀ command, Command.read text = .ok command → ∀ n ∈ command.positions, 1 ≤ n)
          ∧ ∀ message, (c.obey text).flow = .error message →
            c.obey text = c.refusal message
              ∧ ((g.after moves).session = none → c.answer text
                = ⟨c, if text.toList.all isBlank then [] else [complaint message], .goesOn⟩) := by
  have hsettled := Game.settled_after hnew moves
  refine ⟨failure_converse hsettled _, fun hclosed hlive => ?_, fun c text hprompt => ?_⟩
  · obtain ⟨s, hs, -⟩ := Game.exists_startCombat_nextChallenge hsettled hclosed hlive
    exact ⟨s, hs⟩
  · obtain ⟨⟨s, hs⟩, hcurrent⟩ := current_of_mem_prompts hprompt
    refine ⟨fun command => Command.pos_of_read, fun message hfails => ⟨?_, fun hclosed => ?_⟩⟩
    · exact (comesTo_obey hs text).eq_refusal hfails
    · exact (hcurrent (current_of_closed hclosed)).answer_of_error hs hfails

/-- Nobody who types nonsense on the first floor comes to harm by it. -/
theorem withstands_nonsense :
    ∃ g : Game Rat, Game.new .standard .builtIn = .ok g
      ∧ ((Console.new g).perform "dance\nd 0\ngo 2").failure = none
      ∧ (∃ s, (g.startCombat g.nextChallenge).answer = .ok s)
      ∧ ∃ c output, (Console.new g).opening = .ready c output
        ∧ c.answer "dance"
          = ⟨c, [complaint (CommandFault.unknown "dance").message], .goesOn⟩ := by
  obtain ⟨g, hnew, hclosed, hlive⟩ : ∃ g : Game Rat, Game.new .standard .builtIn = .ok g
      ∧ g.session = none ∧ g.isRunOver = false := ⟨_, rfl, rfl, by decide +kernel⟩
  obtain ⟨hfailure, hstart, hprompts⟩ :=
    withstands_every_script hnew [] "dance\nd 0\ngo 2"
  refine ⟨g, hnew, hfailure, hstart hclosed hlive, ?_⟩
  have hlines : scriptLines "dance\nd 0\ngo 2" = ["dance", "d 0", "go 2"] := by decide +kernel
  rw [hlines] at hprompts
  cases hopening : (Console.new g).opening with
  | finished output =>
    exact nomatch hlive.symm.trans (closed_of_opening_eq_finished hopening).2.1
  | failed fault =>
    exact absurd hopening (opening_ne_failed (Game.settled_of_new hnew) fault)
  | ready c output =>
    refine ⟨c, output, rfl, ?_⟩
    have hread : Command.read "dance" = .error (.unknown "dance") := by decide +kernel
    have hprompt : (c, some "dance") ∈ (Console.new g).prompts ["dance", "d 0", "go 2"] := by
      rw [prompts, hopening]
      exact List.mem_cons_self
    have hfails : (c.obey "dance").flow = .error (CommandFault.unknown "dance").message := by
      rw [obey, hread]
      rfl
    have hround := ((hprompts c "dance" hprompt).2 _ hfails).2 hclosed
    rwa [if_neg (by decide +kernel)] at hround

end Console

end Arithmancy
