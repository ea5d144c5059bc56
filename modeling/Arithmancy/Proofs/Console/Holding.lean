import Arithmancy.Proofs.Console.Rounds
import Arithmancy.Proofs.Game.RandomStream

/-!
# What the console says of a die that is held

To hold a die twice is to release it. The encounter does so (`Session.toggleHold?_of_getElem?`),
and the game answers that it is done. At every prompt of a dialogue it is done: the encounter goes
on, and the die that is asked for is on the tray, where no other die has its identity.

The console takes the answer for the state of the die. So it says of every die that it is held,
and that is true only of a die that was not held before. The main statement is
`Console.hold_reports`.
-/

namespace Arithmancy

/-! ## Holding a die -/

namespace Session

/-- **The die that is held or released is the one at its place**, if no other has its identity. -/
theorem flipHeld_eq_set {dice : List Die} (h : (Tray.ids dice).Nodup) {i : Nat} {d : Die}
    (hd : dice[i]? = some d) :
    flipHeld d.id dice = dice.set i { d with held := !d.held } := by
  induction dice generalizing i with
  | nil => cases hd
  | cons first dice ih =>
    obtain ⟨hfirst, hdice⟩ := List.nodup_cons.mp h
    cases i with
    | zero =>
      obtain rfl := Option.some.inj hd
      exact if_pos rfl
    | succ i =>
      have hother : first.id ≠ d.id := fun heq =>
        hfirst (List.mem_map.mpr ⟨d, List.mem_of_getElem? hd, heq.symm⟩)
      rw [flipHeld, if_neg hother, List.set_cons_succ]
      exact congrArg (first :: ·) (ih hdice hd)

variable {α : Type} {s : Session α} {i : Nat} {d : Die}

/-- **A die on the tray** is held or released as long as the encounter goes on, and nothing else
changes. -/
theorem toggleHold?_of_getElem? (hover : s.isOver = false) (h : (Tray.ids s.dice).Nodup)
    (hd : s.dice[i]? = some d) :
    s.toggleHold? d.id
      = some { s with dice := s.dice.set i { d with held := !d.held } } := by
  have hfound : (s.die? d.id).isSome = true :=
    List.find?_isSome.mpr ⟨d, List.mem_of_getElem? hd, beq_self_eq_true d.id⟩
  rw [toggleHold?_eq_some_iff, flipHeld_eq_set h hd]
  exact ⟨hover, hfound, rfl⟩

end Session

variable {α : Type} [Scalar α]

namespace Console

variable {c : Console α} {s : Session α} {i : Nat} {d : Die}

/-- **What the console says of a die** that is held, or not. -/
def holdReport (n : Nat) (held : Bool) : Passage :=
  .said (line (if held then s!"die {n} held" else s!"die {n} released"))

/-- It is not the same of a die that is held and of one that is not. -/
theorem holdReport_true_ne_false (n : Nat) : holdReport n true ≠ holdReport n false := by
  intro h
  have hlength := congrArg String.length (Passage.said.inj h)
  have hends : (toString " held").length ≠ (toString " released").length := by decide
  simp only [line, if_true, Bool.false_eq_true, if_false, String.length_append] at hlength
  omega

/-- **The response to the command**: the die is held or released, and the console says that it is
held. -/
theorem execute_hold (hs : c.game.session = some s) (hover : s.isOver = false)
    (h : (Tray.ids s.dice).Nodup) (hd : s.dice[i]? = some d) :
    c.execute (.hold (i + 1))
      = ⟨⟨c.game.withSession { s with dice := s.dice.set i { d with held := !d.held } }, c.shown⟩,
        [holdReport (i + 1) true], .ok .goesOn⟩ := by
  have htoggle := Session.toggleHold?_of_getElem? hover h hd
  have hstep : c.game.toggleHold d.id = ⟨.ok true,
      c.game.withSession { s with dice := s.dice.set i { d with held := !d.held } }, []⟩ := by
    rw [Game.toggleHold, Game.onSession, hs]
    dsimp only
    rw [htoggle]
  rw [execute, withDie, withSession_eq hs, Nat.add_sub_cancel, hd]
  dsimp only
  rw [hstep]
  rfl

/-- **A die that is held or released is said to be held.** At every prompt of a dialogue that sets
out between two encounters of a game, and whatever was typed before, the command to hold a die on
the tray holds it if it was not held, and releases it if it was. No other die changes, and nothing
else does. In both cases the console says that the die is held: so what it says is true exactly if
the die was not held before. A line that is read as the command is answered with just that. -/
theorem hold_reports {g : Game α} (hreached : g.Reached) (hclosed : g.session = none)
    (script : String) {typed : Option String}
    (hprompt : (c, typed) ∈ (Console.new g).prompts (scriptLines script))
    (hs : c.game.session = some s) (hd : s.dice[i]? = some d) :
    (c.execute (.hold (i + 1))).console.game
        = c.game.withSession { s with dice := s.dice.set i { d with held := !d.held } }
      ∧ (c.execute (.hold (i + 1))).flow = .ok .goesOn
      ∧ (c.execute (.hold (i + 1))).output = [holdReport (i + 1) true]
      ∧ ((c.execute (.hold (i + 1))).output = [holdReport (i + 1) (!d.held)] ↔ d.held = false)
      ∧ ∀ text, Command.read text = .ok (.hold (i + 1)) →
        c.answer text
          = ⟨(c.execute (.hold (i + 1))).console, [holdReport (i + 1) true], .goesOn⟩ := by
  have hcurrent : c.Current :=
    (current_of_mem_prompts hprompt).2 (current_of_closed (c := Console.new g) hclosed)
  have hequipped : c.game.Equipped :=
    keeps_prompts (fun _ _ _ _ h hcourse => h.of_course hcourse) hprompt hreached.equipped
  have hexecute := execute_hold hs (hcurrent.goesOn s hs) (hequipped.placed s hs).nodup_ids hd
  rw [hexecute]
  refine ⟨rfl, rfl, rfl, ?_, fun text hread => ?_⟩
  · cases d.held with
    | false => exact iff_of_true rfl rfl
    | true =>
      refine iff_of_false (fun h => ?_) nofun
      exact holdReport_true_ne_false _ (List.singleton_inj.mp h)
  · have hblank : ¬text.toList.all isBlank = true := fun hblank => by
      rw [Command.read, words_of_blank hblank] at hread
      cases hread
    have hobey : c.obey text = c.execute (.hold (i + 1)) := by rw [obey, hread]
    -- nothing was told, and the encounter goes on
    have hafter : Current (α := α)
        ⟨c.game.withSession { s with dice := s.dice.set i { d with held := !d.held } }, c.shown⟩ :=
      ⟨fun _ hs' => Option.some.inj hs' ▸ hcurrent.shown s hs,
        fun _ hs' => Option.some.inj hs' ▸ hcurrent.goesOn s hs⟩
    rw [answer, if_neg hblank, hobey, hexecute]
    exact hafter.settle_eq _

/-- What a player types who holds the first die and lets go of it. -/
def holdTwice : String := "hold 1\nhold 1\n"

/-- At the second prompt the first die is held, and so it is released. -/
theorem hold_reports_twice :
    ∃ (g : Game Rat) (c : Console Rat) (typed : Option String) (s : Session Rat) (d : Die),
      Game.new .standard .builtIn = .ok g
      ∧ (c, typed) ∈ (Console.new g).prompts (scriptLines holdTwice)
      ∧ c.game.session = some s ∧ s.dice[0]? = some d ∧ d.held = true
      ∧ (c.execute (.hold 1)).console.game
        = c.game.withSession { s with dice := s.dice.set 0 { d with held := !d.held } }
      ∧ c.answer "hold 1" = ⟨(c.execute (.hold 1)).console, [holdReport 1 true], .goesOn⟩ := by
  obtain ⟨g, hnew, hclosed, hsecond⟩ : ∃ g : Game Rat, Game.new .standard .builtIn = .ok g
      ∧ g.session = none
      ∧ ((Console.new g).prompts (scriptLines holdTwice))[1]?.any (fun p =>
        p.1.game.session.any fun s => s.dice[0]?.any (·.held)) = true :=
    ⟨_, rfl, rfl, by decide +kernel⟩
  obtain ⟨⟨c, typed⟩, hprompt, hopen⟩ := (Option.any_eq_true _ _).mp hsecond
  obtain ⟨s, hs, htray⟩ := (Option.any_eq_true _ _).mp hopen
  obtain ⟨d, hd, hheld⟩ := (Option.any_eq_true _ _).mp htray
  have hmem := List.mem_of_getElem? hprompt
  have hread : Command.read "hold 1" = .ok (.hold 1) := by decide +kernel
  obtain ⟨hgame, -, -, -, hanswer⟩ :=
    hold_reports (.new hnew) hclosed holdTwice hmem hs hd
  exact ⟨g, c, typed, s, d, hnew, hmem, hs, hd, hheld, hgame, hanswer "hold 1" hread⟩

/-- **A die that is released is said to be held**: the first die is held and let go, and the
console says twice that it is held. -/
theorem released_said_held :
    ∃ g : Game Rat, Game.new .standard .builtIn = .ok g
      ∧ (((Console.new g).perform holdTwice).output.drop 2).map Passage.text
        = ["> ", "die 1 held\n", "> ", "die 1 held\n", "> "]
      ∧ ((Console.new g).perform holdTwice).game.session.any (fun s =>
          s.dice[0]?.any fun d => !d.held) = true :=
  ⟨_, rfl, by decide +kernel⟩

end Console

end Arithmancy
