import Arithmancy.Number.Exact
import Arithmancy.Proofs.Console.Rounds

/-!
# Every line of a log is shown once

What is told in an encounter stands in its log, and the console shows the log piece by piece: at
the start of an encounter, after each command, and once more after a turn, before the table. How
far it has come is kept beside the game. So it is not plain from the console itself that no
piece is left out when an encounter is closed or abandoned, that none is shown twice, and that
nothing is carried over into the next encounter.

It is plain from what is read off the games alone. A dialogue passes through games
(`Console.games`), and each encounter among them leaves a log behind, as it stood in the last of
the games in which the encounter was open (`Game.logs`). The main statement,
`Console.entries_perform`, says that the lines of logs that a dialogue shows are those logs, one
after another. It is carried by a balance that every step of the dialogue keeps
(`Console.Accounts`): what had been heard of the open encounter, with what the step shows, is
what the step leaves behind, with what has been heard of the encounter then.
-/

namespace Arithmancy

/-! ## The logs that are left behind -/

namespace Game

variable {α : Type}

/-- The log of the open encounter, if there is one. -/
def openLog (g : Game α) : List (List String) := (g.session.map Session.log).toList

/-- **The log that is left behind** when one game is followed by another: that of the open
encounter, if no encounter is open any more. -/
def logLeft (g g' : Game α) : List (List String) := if g'.session.isSome then [] else g.openLog

/-- **The logs of the encounters** that some games pass through, each as it stood when the
encounter was left, or at last. -/
def logs : List (Game α) → List (List String)
  | [] => []
  | [g] => g.openLog
  | g :: g' :: rest => g.logLeft g' ++ logs (g' :: rest)

variable {g g' : Game α}

theorem logLeft_of_isSome (h : g'.session.isSome = true) : g.logLeft g' = [] := if_pos h

theorem logLeft_of_closed (h : g'.session = none) : g.logLeft g' = g.openLog := by
  rw [logLeft, h]
  rfl

/-- Nothing is left behind where nothing changes. -/
theorem logLeft_self (g : Game α) : g.logLeft g = [] := by
  cases hs : g.session with
  | none =>
    rw [logLeft_of_closed hs, openLog, hs]
    rfl
  | some s => exact logLeft_of_isSome (by rw [hs]; rfl)

end Game

namespace Console

variable {α : Type}

/-- **The lines of logs** among some passages. -/
def entries (output : List Passage) : List String := output.filterMap Passage.entry?

theorem entries_append (output output' : List Passage) :
    entries (output ++ output') = entries output ++ entries output' :=
  List.filterMap_append

@[simp]
theorem entries_told (log : List String) : entries (log.map Passage.told) = log := by
  rw [entries, List.filterMap_map]
  exact List.filterMap_some

@[simp]
theorem entries_said (texts : List String) : entries (said texts) = [] := by
  rw [entries, said, List.filterMap_map]
  exact List.filterMap_eq_nil_iff.mpr fun _ _ => rfl

/-- **What has been shown** of the log of the open encounter. -/
def heard (c : Console α) : List String :=
  match c.game.session with
  | none => []
  | some s => s.log.take c.shown

theorem heard_of_closed {c : Console α} (h : c.game.session = none) : c.heard = [] := by
  rw [heard, h]

theorem heard_of_open {c : Console α} {s : Session α} (hs : c.game.session = some s) :
    c.heard = s.log.take c.shown := by
  rw [heard, hs]

/-- Once the whole log has been shown, all of it has been heard. -/
theorem heard_of_shown {g : Game α} {s : Session α} (hs : g.session = some s) :
    (⟨g, s.log.length⟩ : Console α).heard = s.log := by
  rw [heard_of_open (c := ⟨g, s.log.length⟩) hs, List.take_length]

/-- At a current console the whole log has been heard. -/
theorem Current.heard_eq {c : Console α} (hc : c.Current) : c.heard = c.game.openLog.flatten := by
  rw [heard, Game.openLog]
  cases hs : c.game.session with
  | none => rfl
  | some s =>
    dsimp only
    rw [hc.shown s hs, List.take_length]
    exact (List.append_nil _).symm

/-! ## The balance -/

/-- **A step of the dialogue accounts for what it shows**: what had been heard of the open
encounter, with the lines of logs that are shown, is what is left behind, with what has been
heard then. -/
def Accounts (c : Console α) (output : List Passage) (c' : Console α) : Prop :=
  c.heard ++ entries output = (c.game.logLeft c'.game).flatten ++ c'.heard

variable {c c' : Console α} {s : Session α} {output : List Passage}

/-- If an encounter is open afterwards nothing is left behind. -/
theorem accounts_iff_of_isSome (hopen : c'.game.session.isSome = true) :
    c.Accounts output c' ↔ c.heard ++ entries output = c'.heard := by
  rw [Accounts, Game.logLeft_of_isSome hopen]
  rfl

/-- Nothing is left behind where nothing is told and nothing changes. -/
theorem accounts_self (h : entries output = []) : c.Accounts output c := by
  rw [Accounts, Game.logLeft_self, h]
  exact List.append_nil _

/-- At the end of a dialogue the whole log has been heard. -/
theorem Current.heard_last (hc : c.Current) (h : entries output = []) :
    c.heard ++ entries output = (Game.logs [c.game]).flatten := by
  rw [h, List.append_nil]
  exact hc.heard_eq

/-! ## The games of a dialogue -/

variable [Scalar α]

/-- The games that a dialogue passes through at a prompt: the one before the line, the one after
the command, and the one in which the line has been answered. -/
def gamesAt (c : Console α) (typed : Option String) : List (Game α) :=
  c.game :: match typed with
    | none => []
    | some text => [(c.obey text).console.game, (c.answer text).console.game]

/-- **The games that a dialogue passes through**, in order. -/
def games (c : Console α) (lines : List String) : List (Game α) :=
  c.game :: (c.prompts lines).flatMap fun p => p.1.gamesAt p.2

/-! ## What is accounted for -/

/-- **The start of an encounter** is heard. -/
theorem Opens.accounts (h : c.Opens c' output) : c.Accounts output c' := by
  cases h with
  | already _ => exact accounts_self rfl
  | @starts s text hclosed _ _ =>
    refine (accounts_iff_of_isSome rfl).mpr ?_
    rw [heard_of_closed hclosed, entries_append, entries_told, heard_of_shown rfl]
    exact List.append_nil _

/-- **What a command comes to** is accounted for: what it adds to the log is shown, or remains
to be heard. -/
theorem ComesTo.accounts {r : Response α} (h : c.ComesTo s r) (hc : c.Current)
    (hs : c.game.session = some s) : c.Accounts r.output r.console := by
  have hshown := hc.shown s hs
  have hheard : c.heard = s.log := by rw [heard_of_open hs, hshown, List.take_length]
  cases h with
  | fails | leaves => exact accounts_self rfl
  | shows texts => exact accounts_self (entries_said texts)
  | @plays _ g _ s' texts _ hs' hlog =>
    -- what was heard is the beginning of the longer log
    have hheard' : (⟨g, c.shown⟩ : Console α).heard = s.log := by
      rw [heard_of_open hs', hshown]
      exact (List.prefix_iff_eq_take.mp hlog).symm
    refine (accounts_iff_of_isSome (by rw [showing, hs']; rfl)).mpr ?_
    show c.heard ++ entries (said texts) = (⟨g, c.shown⟩ : Console α).heard
    rw [entries_said, hheard, hheard', List.append_nil]
  | @tells _ g _ s' texts _ hs' hlog =>
    -- what is shown is the rest of the longer log
    obtain ⟨lines, hlines⟩ := hlog
    refine (accounts_iff_of_isSome (by rw [showing, hs']; rfl)).mpr ?_
    show c.heard ++ entries ((s'.log.drop c.shown).map Passage.told ++ said texts)
      = (⟨g, s'.log.length⟩ : Console α).heard
    rw [entries_append, entries_told, entries_said, hheard, heard_of_shown hs', hshown, ← hlines,
      List.drop_left, List.append_nil]
  | @givesUp g _ _ hclosed =>
    show c.heard ++ entries [] = (c.game.logLeft g).flatten ++ (⟨g, c.shown⟩ : Console α).heard
    rw [hc.heard_eq, Game.logLeft_of_closed hclosed, heard_of_closed hclosed]
    rfl

/-- **What is shown when a command is followed up** is accounted for: it is the rest of the log,
also if the encounter is left behind. -/
theorem Settles.accounts {round : Round α} (h : c.Settles output round) :
    ∃ told, round.output = output ++ told ∧ c.Accounts told round.console := by
  cases h with
  | closed _ => exact ⟨[], (List.append_nil _).symm, accounts_self rfl⟩
  | @goesOn s hs _ =>
    refine ⟨_, rfl, (accounts_iff_of_isSome (by rw [hs]; rfl)).mpr ?_⟩
    rw [entries_told, heard_of_open hs, heard_of_shown hs, List.take_append_drop]
  | @ends s g _ text hs _ _ hclosed =>
    refine ⟨_, List.append_assoc _ _ _, ?_⟩
    rw [Accounts, Game.logLeft_of_closed hclosed, heard_of_closed (c := ⟨g, _⟩) hclosed,
      entries_append, entries_told, heard_of_open hs, Game.openLog, hs]
    show s.log.take c.shown ++ (s.log.drop c.shown ++ []) = (s.log ++ []) ++ []
    rw [List.append_nil, List.take_append_drop, List.append_nil, List.append_nil]

/-- A blank line is no command, and would do nothing. -/
theorem console_obey_of_blank {text : String} (h : text.toList.all isBlank = true) :
    (c.obey text).console = c := by
  rw [obey, Command.read, words_of_blank h]
  rfl

/-- **A line that is answered** is accounted for: by what the command leaves behind and by what
the encounter leaves behind that is closed after it. -/
theorem accounts_answer (hc : c.Current) (hs : c.game.session = some s) (text : String) :
    c.heard ++ entries (c.answer text).output
      = (c.game.logLeft (c.obey text).console.game).flatten
        ++ ((c.obey text).console.game.logLeft (c.answer text).console.game).flatten
        ++ (c.answer text).console.heard := by
  generalize c.answer text = round, answers_answer hs text = h
  cases h with
  | blank hblank =>
    rw [console_obey_of_blank hblank, Game.logLeft_self]
    exact List.append_nil _
  | leaves hobey =>
    rw [hobey, Game.logLeft_self]
    exact List.append_nil _
  | settles texts hcomes hsettles =>
    obtain ⟨told, houtput, htold⟩ := hsettles.accounts
    have hshown : c.heard ++ entries (c.obey text).output = _ := hcomes.accounts hc hs
    rw [houtput, entries_append, entries_append, entries_said, List.append_nil,
      ← List.append_assoc, hshown, List.append_assoc, htold, List.append_assoc]

/-! ## Whole dialogues -/

/-- **One round of the dialogue** adds what it leaves behind to the rest. -/
theorem heard_round (hopens : c.Opens c' output) (hc : c.Current) (text : String)
    {rest : List Passage} {tail : List (Game α)}
    (htail : (c'.answer text).console.heard ++ entries rest
      = (Game.logs ((c'.answer text).console.game :: tail)).flatten) :
    c.heard ++ entries (output ++ [prompt] ++ ((c'.answer text).output ++ rest))
      = (Game.logs (c.game :: (c'.gamesAt (some text) ++ tail))).flatten := by
  obtain ⟨s, hs⟩ := hopens.exists_session
  have hopen : c'.game.session.isSome = true := by rw [hs]; rfl
  have hstart := (accounts_iff_of_isSome hopen).mp hopens.accounts
  have hprompt : entries [prompt] = [] := rfl
  have hround := accounts_answer (hc.of_opens hopens) hs text
  show _ = (c.game.logLeft c'.game ++ (c'.game.logLeft (c'.obey text).console.game
    ++ ((c'.obey text).console.game.logLeft (c'.answer text).console.game
      ++ Game.logs ((c'.answer text).console.game :: tail)))).flatten
  rw [entries_append, entries_append, entries_append, hprompt, List.append_nil,
    ← List.append_assoc, hstart, ← List.append_assoc, hround, List.append_assoc, htail,
    Game.logLeft_of_isSome hopen, List.nil_append, List.flatten_append, List.flatten_append,
    List.append_assoc]

/-- **What is heard in a dialogue** is what the games leave behind that it passes through. -/
theorem heard_converse (hc : c.Current) (lines : List String) :
    c.heard ++ entries (c.converse lines).output = (Game.logs (c.games lines)).flatten := by
  induction lines generalizing c with
  | nil =>
    unfold converse games prompts
    cases hopening : c.opening with
    | finished output => exact hc.heard_last (closed_of_opening_eq_finished hopening).2.2
    | failed fault => exact hc.heard_last rfl
    | ready c' output =>
      have hopens := opens_of_opening_eq_ready hopening
      obtain ⟨s, hs⟩ := hopens.exists_session
      have hopen : c'.game.session.isSome = true := by rw [hs]; rfl
      have hprompt : entries [prompt] = [] := rfl
      show c.heard ++ entries (output ++ [prompt] ++ [])
        = (c.game.logLeft c'.game ++ Game.logs [c'.game]).flatten
      rw [List.append_nil, entries_append, hprompt, List.append_nil,
        Game.logLeft_of_isSome hopen]
      exact ((accounts_iff_of_isSome hopen).mp hopens.accounts).trans
        (hc.of_opens hopens).heard_eq
  | cons text rest ih =>
    unfold converse games prompts
    cases hopening : c.opening with
    | finished output => exact hc.heard_last (closed_of_opening_eq_finished hopening).2.2
    | failed fault => exact hc.heard_last rfl
    | ready c' output =>
      have hopens := opens_of_opening_eq_ready hopening
      obtain ⟨s, hs⟩ := hopens.exists_session
      have hcurrent := (hc.of_opens hopens).of_answer hs text
      -- if the dialogue ends with this line, nothing more is shown
      have hround := heard_round hopens hc text (hcurrent.heard_last (rfl : entries [] = []))
      rw [List.append_nil] at hround
      show c.heard ++ entries (Transcript.after (output ++ [prompt]) _).output
        = (Game.logs (c.game :: List.flatMap _ _)).flatten
      dsimp only
      cases hsequel : (c'.answer text).sequel with
      | goesOn => exact heard_round hopens hc text (ih hcurrent)
      | leaves => exact hround
      | breaksOff fault => exact hround

/-- **A dialogue shows every line of every log once, and in order.** If no encounter is open at
first, as in a new game, then the lines of logs that are shown over a whole script are the logs
of the encounters that the dialogue passes through, one after another, each as it stood when the
encounter was closed or abandoned, or when the dialogue stopped. -/
theorem entries_perform {g : Game α} (hclosed : g.session = none) (script : String) :
    entries ((Console.new g).perform script).output
      = (Game.logs ((Console.new g).games (scriptLines script))).flatten := by
  have hheard := heard_converse (current_of_closed (c := Console.new g) hclosed)
    (scriptLines script)
  rwa [heard_of_closed (c := Console.new g) hclosed, List.nil_append] at hheard

/-- What a player types who slays the first monster with one exact hit, strikes the second after
a reroll, and gives up. -/
def shortHunt : String := "d 1\no 1\nd 2\ngo\nr\nd 1\ngo\ngiveup\n"

/-- Of the first encounter four lines are told and of the second six, and all ten are shown. -/
theorem entries_perform_shortHunt :
    ∃ g : Game Rat, Game.new .standard .builtIn = .ok g
      ∧ (Game.logs ((Console.new g).games (scriptLines shortHunt))).map List.length = [4, 6]
      ∧ entries ((Console.new g).perform shortHunt).output
        = (Game.logs ((Console.new g).games (scriptLines shortHunt))).flatten := by
  obtain ⟨g, hnew, hclosed, hlengths⟩ : ∃ g : Game Rat, Game.new .standard .builtIn = .ok g
      ∧ g.session = none
      ∧ (Game.logs ((Console.new g).games (scriptLines shortHunt))).map List.length = [4, 6] :=
    ⟨_, rfl, rfl, by decide +kernel⟩
  exact ⟨g, hnew, hlengths, entries_perform hclosed shortHunt⟩

end Console

end Arithmancy
