import Arithmancy.Proofs.Console.Responses

/-!
# The rounds of a dialogue

A dialogue goes in rounds: an encounter is opened if none is open, a line is asked for, and the
line is answered. The consoles at which a line is asked for are the prompts of the dialogue
(`Console.prompts`). This module says what becomes of a console when an encounter is opened
(`Console.Opens`) and when a line has been answered (`Console.Settles`), and draws the invariant
of the loop from that: at every prompt an encounter is open and goes on, and all that was told in
it has been shown (`Console.Current`).
-/

namespace Arithmancy

variable {α : Type} [Scalar α]

namespace Game

/-- **An encounter that is over is closed** when that is asked for. -/
theorem finishCombat_of_isOver {g : Game α} {s : Session α} (hs : g.session = some s)
    (hover : s.isOver = true) :
    g.finishCombat.answer = .ok s.phase ∧ g.finishCombat.game.session = none
      ∧ g.Course .finishCombat false g.finishCombat.game g.finishCombat.events := by
  have hplay : g.play .finishCombat = g.finishCombat.reply Reply.phase := rfl
  have hfinish : g.finishCombat.answer = .ok s.phase ∧ g.finishCombat.game.session = none := by
    rw [finishCombat, onSession, hs]
    dsimp only
    rw [hover, if_neg (by decide)]
    split <;> exact ⟨rfl, rfl⟩
  refine ⟨hfinish.1, hfinish.2, course_of_reply hplay ?_⟩
  rw [Step.isRefused, Step.reply, hfinish.1]
  rfl

end Game

namespace Console

/-! ## The loop -/

/-- **The prompts of a dialogue**: each console at which a line is asked for, with the line that
is typed there, if there is one. -/
def prompts (c : Console α) : List String → List (Console α × Option String)
  | [] =>
    match c.opening with
    | .ready c _ => [(c, none)]
    | _ => []
  | text :: rest =>
    match c.opening with
    | .ready c _ => (c, some text) :: match (c.answer text).sequel with
      | .goesOn => prompts (c.answer text).console rest
      | _ => []
    | _ => []

/-- **A current console**: all that was told in the open encounter has been shown, and the
encounter goes on. -/
structure Current (c : Console α) : Prop where
  /-- All that was told has been shown. -/
  shown : ∀ s, c.game.session = some s → c.shown = s.log.length
  /-- The encounter goes on. -/
  goesOn : ∀ s, c.game.session = some s → s.isOver = false

omit [Scalar α] in
/-- As long as no encounter is open there is nothing to show. -/
theorem current_of_closed {c : Console α} (h : c.game.session = none) : c.Current :=
  ⟨fun _ hs => (nomatch h.symm.trans hs), fun _ hs => nomatch h.symm.trans hs⟩

/-! ## Opening an encounter -/

/-- **How the next line comes to be asked for.** -/
inductive Opens (c : Console α) : Console α → List Passage → Prop where
  /-- An encounter is open already. -/
  | already {s : Session α} (hs : c.game.session = some s) : Opens c c []
  /-- An encounter is started, and what is told of its start is shown. -/
  | starts {s : Session α} (text : String) (hclosed : c.game.session = none)
      (hlive : c.game.isRunOver = false)
      (hs : Session.start c.game.run c.game.bestiary c.game.nextChallenge = .ok s) :
      Opens c ⟨c.game.withSession s, s.log.length⟩ (s.log.map Passage.told ++ [.said text])

variable {c c' : Console α} {output : List Passage}

/-- The next encounter fails to open only if no encounter is open, the run is not over, and the
start is refused. -/
theorem startCombat_of_opening_eq_failed {fault : GameFault α} (h : c.opening = .failed fault) :
    c.game.session = none ∧ c.game.isRunOver = false
      ∧ (c.game.startCombat c.game.nextChallenge).answer = .error fault := by
  unfold opening at h
  split at h
  · cases h
  · next hclosed =>
    split at h
    · cases h
    · next hlive =>
      refine ⟨Option.not_isSome_iff_eq_none.mp hclosed, Bool.not_eq_true _ ▸ hlive, ?_⟩
      dsimp only at h
      split at h
      · next hrefused =>
        cases h
        exact hrefused
      · cases h

/-- If there is nothing more to ask for since the run is over, no encounter is open and nothing
is told. -/
theorem closed_of_opening_eq_finished (h : c.opening = .finished output) :
    c.game.session = none ∧ c.game.isRunOver = true
      ∧ output.filterMap Passage.entry? = [] := by
  unfold opening at h
  split at h
  · cases h
  · next hclosed =>
    split at h
    · next hover =>
      obtain rfl := Opening.finished.inj h
      exact ⟨Option.not_isSome_iff_eq_none.mp hclosed, hover, rfl⟩
    · dsimp only at h
      split at h <;> cases h

/-- **Every line is asked for** as `Opens` says. -/
theorem opens_of_opening_eq_ready (h : c.opening = .ready c' output) : c.Opens c' output := by
  unfold opening at h
  split at h
  · next hopen =>
    obtain ⟨s, hs⟩ := Option.isSome_iff_exists.mp hopen
    obtain ⟨rfl, rfl⟩ := Opening.ready.inj h
    exact .already hs
  · next hclosed =>
    split at h
    · cases h
    · next hlive =>
      rw [Option.not_isSome_iff_eq_none] at hclosed
      rw [Bool.not_eq_true] at hlive
      dsimp only at h
      split at h
      · cases h
      · next s hstart =>
        obtain ⟨hs, hgame⟩ := Game.start_of_startCombat hstart
        rw [hgame] at h
        obtain ⟨rfl, rfl⟩ := Opening.ready.inj h
        exact .starts _ hclosed hlive hs

theorem Opens.exists_session (h : c.Opens c' output) : ∃ s, c'.game.session = some s := by
  cases h with
  | already hs => exact ⟨_, hs⟩
  | starts _ _ _ _ => exact ⟨_, rfl⟩

/-- **A console stays current** when an encounter is opened. -/
theorem Current.of_opens (hc : c.Current) (h : c.Opens c' output) : c'.Current := by
  cases h with
  | already _ => exact hc
  | starts _ _ _ hstart =>
    obtain ⟨_, _, _, -, -, rfl⟩ := Session.exists_of_start hstart
    exact ⟨fun _ hs => Option.some.inj hs ▸ rfl, fun _ hs => Option.some.inj hs ▸ rfl⟩

/-! ## Answering a line -/

/-- **How a command is followed up.** -/
inductive Settles (c : Console α) (output : List Passage) : Round α → Prop where
  /-- No encounter is open. -/
  | closed (hclosed : c.game.session = none) : Settles c output ⟨c, output, .goesOn⟩
  /-- The encounter goes on, and what was told is shown. -/
  | goesOn {s : Session α} (hs : c.game.session = some s) (hover : s.isOver = false) :
      Settles c output ⟨⟨c.game, s.log.length⟩,
        output ++ (s.log.drop c.shown).map Passage.told, .goesOn⟩
  /-- The encounter is over; what was told is shown, and the encounter is closed. -/
  | ends {s : Session α} {g : Game α} {events : List (Event α)} (text : String)
      (hs : c.game.session = some s) (hover : s.isOver = true)
      (hcourse : c.game.Course .finishCombat false g events) (hclosed : g.session = none) :
      Settles c output ⟨⟨g, s.log.length⟩,
        output ++ (s.log.drop c.shown).map Passage.told ++ [.said text], .goesOn⟩

/-- **Every command is followed up** as `Settles` says: no encounter is closed too early. -/
theorem settles_settle (c : Console α) (output : List Passage) :
    c.Settles output (c.settle output) := by
  unfold settle
  cases hs : c.game.session with
  | none =>
    rw [tell, hs]
    dsimp only
    rw [close, hs]
    dsimp only
    rw [List.append_nil, List.append_nil]
    exact .closed hs
  | some s =>
    rw [tell_eq hs]
    dsimp only
    rw [close]
    dsimp only
    rw [hs]
    dsimp only
    cases hover : s.isOver with
    | false =>
      rw [if_neg (by decide), List.append_nil]
      exact .goesOn hs hover
    | true =>
      obtain ⟨hanswer, hclosed, hcourse⟩ := Game.finishCombat_of_isOver hs hover
      rw [if_pos rfl, hanswer]
      exact .ends _ hs hover hcourse hclosed

/-- The dialogue goes on when a command has been followed up. -/
theorem Settles.sequel_eq {round : Round α} (h : c.Settles output round) :
    round.sequel = .goesOn := by
  cases h <;> rfl

/-- **A console is current** once a command has been followed up. -/
theorem Settles.current {round : Round α} (h : c.Settles output round) :
    round.console.Current := by
  cases h with
  | closed hclosed => exact current_of_closed hclosed
  | goesOn hs hover =>
    have hsame : ∀ s', c.game.session = some s' → s' = _ := fun s' hs' =>
      Option.some.inj (hs'.symm.trans hs)
    exact ⟨fun s' hs' => hsame s' hs' ▸ rfl, fun s' hs' => hsame s' hs' ▸ hover⟩
  | ends _ _ _ _ hclosed => exact current_of_closed hclosed

/-- **At a current console** a command that has changed nothing is followed up by nothing. -/
theorem Current.settle_eq (hc : c.Current) (output : List Passage) :
    c.settle output = ⟨c, output, .goesOn⟩ := by
  generalize c.settle output = round, settles_settle c output = h
  cases h with
  | closed _ => rfl
  | @goesOn s hs _ =>
    rcases c with ⟨g, shown⟩
    obtain rfl : shown = s.log.length := hc.shown s hs
    rw [List.drop_length, List.map_nil, List.append_nil]
  | ends _ hs hover _ _ => exact nomatch (hc.goesOn _ hs).symm.trans hover

/-- A blank line has no words. -/
theorem words_of_blank {text : String} (h : text.toList.all isBlank = true) :
    words text = [] := by
  rw [words]
  generalize text.toList = cs at h
  induction cs with
  | nil => rfl
  | cons c cs ih =>
    obtain ⟨hc, hcs⟩ := Bool.and_eq_true_iff.mp (List.all_cons ▸ h)
    rw [wordsFrom, if_pos hc]
    exact ih hcs

/-- **How a line is answered**, at a console where an encounter is open. -/
inductive Answers (c : Console α) (s : Session α) (text : String) : Round α → Prop where
  /-- The line is blank. -/
  | blank (hblank : text.toList.all isBlank = true) : Answers c s text ⟨c, [], .goesOn⟩
  /-- The player leaves. -/
  | leaves (hobey : c.obey text = ⟨c, [], .ok .leaves⟩) : Answers c s text ⟨c, [], .leaves⟩
  /-- The command is followed up, after what it shows and a message if it fails. -/
  | settles {round : Round α} (texts : List String) (hcomes : c.ComesTo s (c.obey text))
      (hsettles : (c.obey text).console.Settles ((c.obey text).output ++ said texts) round) :
      Answers c s text round

/-- **Every line is answered** as `Answers` says. -/
theorem answers_answer {s : Session α} (hs : c.game.session = some s) (text : String) :
    c.Answers s text (c.answer text) := by
  have hcomes := comesTo_obey hs text
  unfold answer
  split
  · next hblank => exact .blank hblank
  · dsimp only
    split
    · next message _ => exact .settles [_] hcomes (settles_settle _ _)
    · refine .settles [] hcomes ?_
      rw [said, List.map_nil, List.append_nil]
      exact settles_settle _ _
    · next hflow =>
      have hobey : c.obey text = ⟨c, [], .ok .leaves⟩ := by
        revert hflow
        generalize c.obey text = r at hcomes
        cases hcomes with
        | leaves => exact fun _ => rfl
        | fails | shows | plays | tells | givesUp => nofun
      rw [hobey]
      exact .leaves hobey

/-- **A console stays current** when a line is answered. -/
theorem Current.of_answer (hc : c.Current) {s : Session α} (hs : c.game.session = some s)
    (text : String) : (c.answer text).console.Current := by
  generalize c.answer text = round, answers_answer hs text = h
  cases h with
  | blank _ => exact hc
  | leaves _ => exact hc
  | settles _ _ hsettles => exact hsettles.current

/-- **The dialogue does not break off** over a line. -/
theorem sequel_answer {s : Session α} (hs : c.game.session = some s) (text : String)
    (fault : GameFault α) : (c.answer text).sequel ≠ .breaksOff fault := by
  generalize c.answer text = round, answers_answer hs text = h
  cases h with
  | blank _ => nofun
  | leaves _ => nofun
  | settles _ _ hsettles =>
    rw [hsettles.sequel_eq]
    nofun

/-! ## What rounds keep -/

section

variable {P : Game α → Prop}
  (step : ∀ g m g' events, P g → Game.Course g m false g' events → P g') {s : Session α}

include step

/-- **What every move keeps** is kept when an encounter is opened. -/
theorem Opens.keeps (h : c.Opens c' output) (hc : P c.game) : P c'.game := by
  cases h with
  | already _ => exact hc
  | starts _ hclosed hlive hs => exact step _ _ _ _ hc (.start hlive hclosed hs)

theorem ComesTo.keeps {r : Response α} (h : c.ComesTo s r) (hc : P c.game) : P r.console.game := by
  cases h with
  | fails | leaves | shows => exact hc
  | plays _ hcourse _ _ => exact step _ _ _ _ hc hcourse
  | tells _ hcourse _ _ => exact step _ _ _ _ hc hcourse
  | givesUp hcourse _ => exact step _ _ _ _ hc hcourse

theorem Settles.keeps {round : Round α} (h : c.Settles output round) (hc : P c.game) :
    P round.console.game := by
  cases h with
  | closed _ => exact hc
  | goesOn _ _ => exact hc
  | ends _ _ _ hcourse _ => exact step _ _ _ _ hc hcourse

/-- **What every move keeps** is kept when a line is answered. -/
theorem keeps_answer (hs : c.game.session = some s) (text : String) (hc : P c.game) :
    P (c.answer text).console.game := by
  generalize c.answer text = round, answers_answer hs text = h
  cases h with
  | blank _ => exact hc
  | leaves _ => exact hc
  | settles _ hcomes hsettles => exact hsettles.keeps step (hcomes.keeps step hc)

end

/-! ## Prompts -/

/-- **At every prompt an encounter is open**, and what holds of the console at which the dialogue
starts holds there, too, if it is kept when an encounter is opened and when a line is answered. -/
theorem of_mem_prompts {Q : Console α → Prop}
    (hopens : ∀ c c' output, Q c → Opens c c' output → Q c')
    (hanswer : ∀ c s text, Q c → c.game.session = some s → Q (c.answer text).console)
    {typed : Option String} {lines : List String} (h : (c', typed) ∈ c.prompts lines) :
    (∃ s, c'.game.session = some s) ∧ (Q c → Q c') := by
  induction lines generalizing c with
  | nil =>
    unfold prompts at h
    split at h
    · next hready =>
      obtain ⟨rfl, rfl⟩ := Prod.mk.inj (List.mem_singleton.mp h)
      have hopened := opens_of_opening_eq_ready hready
      exact ⟨hopened.exists_session, fun hc => hopens _ _ _ hc hopened⟩
    · cases h
  | cons text rest ih =>
    unfold prompts at h
    split at h
    · next hready =>
      have hopened := opens_of_opening_eq_ready hready
      obtain ⟨s, hs⟩ := hopened.exists_session
      rcases List.mem_cons.mp h with heq | h
      · obtain ⟨rfl, rfl⟩ := Prod.mk.inj heq
        exact ⟨⟨s, hs⟩, fun hc => hopens _ _ _ hc hopened⟩
      · split at h
        · obtain ⟨hopen, hkept⟩ := ih h
          exact ⟨hopen, fun hc => hkept (hanswer _ s text (hopens _ _ _ hc hopened) hs)⟩
        · cases h
    · cases h

/-- **Every prompt has an open encounter**, and is current if the dialogue starts at a current
console. -/
theorem current_of_mem_prompts {typed : Option String} {lines : List String}
    (h : (c', typed) ∈ c.prompts lines) :
    (∃ s, c'.game.session = some s) ∧ (c.Current → c'.Current) :=
  of_mem_prompts (fun _ _ _ hc hopens => hc.of_opens hopens)
    (fun _ _ text hc hs => hc.of_answer hs text) h

/-- **What every move keeps** holds at every prompt if it holds when the dialogue starts. -/
theorem keeps_prompts {P : Game α → Prop}
    (step : ∀ g m g' events, P g → Game.Course g m false g' events → P g')
    {typed : Option String} {lines : List String} (h : (c', typed) ∈ c.prompts lines)
    (hc : P c.game) : P c'.game :=
  (of_mem_prompts (Q := fun c => P c.game) (fun _ _ _ hc hopens => hopens.keeps step hc)
    (fun _ _ text hc hs => keeps_answer step hs text hc) h).2 hc

end Console

end Arithmancy
