import Arithmancy.Number.Exact
import Arithmancy.Proofs.Encounter.Spoils
import Arithmancy.Proofs.Game.Course

/-!
# Encounters do not depend on how a floor was reached

Two players who stand on the same floor of the same run meet the same encounter there,
however they came to it: with more or fewer hit points, rich or poor, in few turns or in many.
What the start of an encounter reads of a run is little, and is named here (`Outset`). All of it
is settled by how the game was set up, by the floor, and by the relics that are owned
(`Game.Settled`). The one thing among it that a run changes on the way is how many rerolls are
granted with a tray; they grow by one with a relic that is never lost again, and so they can be
told from the relics.

The main statement, `Game.encounter_independent_of_history`, follows from these two: an
encounter starts the same from the same outset (`Session.start_congr`), and the same outset is
what two histories lead to that end on the same floor with the same relics.
-/

namespace Arithmancy

/-- **All that the start of an encounter reads of a run.** -/
structure Outset (α : Type) where
  /-- The seed of the run. -/
  seed : UInt32
  /-- The floor. -/
  floor : Nat
  /-- The amounts in force. -/
  modifiers : Modifiers α
  /-- The operator cards. -/
  hand : List Operator
  /-- The dice that are rolled for a tray. -/
  dicePool : List DieSpec
  /-- The relics, which take part in the deal. -/
  relics : List Relic
  /-- The rerolls granted with a tray. -/
  rerollsPerTurn : Nat

variable {α : Type}

/-- What an encounter sets out from in a run. -/
def Run.outset (run : Run α) : Outset α where
  seed := run.progress.seed
  floor := run.progress.floor
  modifiers := run.progress.modifiers
  hand := run.player.hand
  dicePool := run.player.dicePool
  relics := run.player.relics
  rerollsPerTurn := run.player.rerollsPerTurn

/-- **What an encounter sets out from**, in a game with the given settings, on a floor and with
some relics. -/
def Settings.outset [Scalar α] (settings : Settings α) (floor : Nat) (relics : List Relic) :
    Outset α :=
  let modifiers := Modifiers.forLevel settings.ascension settings.balance
  { seed := settings.seed
    floor := floor
    modifiers := modifiers
    hand := startingHand
    dicePool := Run.penalized settings.loadout.dice modifiers.startingDicePenalty
    relics := relics
    rerollsPerTurn := settings.balance.rerollsPerTurn + relics.count .loadedDice }

variable [Scalar α]

/-! ## The start of an encounter -/

/-- A tray is dealt from the pool, with the relics and the rerolls of the player. -/
theorem Player.dealTray_congr {p p' : Player} (hpool : p.dicePool = p'.dicePool)
    (hrelics : p.relics = p'.relics) (hrerolls : p.rerollsPerTurn = p'.rerollsPerTurn)
    {σ : Type} [Source σ α] (s : σ) : p.dealTray s = p'.dealTray s := by
  unfold dealTray
  rw [hpool, hrelics, hrerolls]

namespace Session

variable {run run' : Run α}

theorem startWith_congr (h : run.outset = run'.outset) (template : Template)
    (g : Generator α) : startWith run template g = startWith run' template g := by
  obtain ⟨-, hfloor, hmodifiers, hhand, hpool, hrelics, hrerolls⟩ := Outset.mk.inj h
  have htray : ∀ s : Session α, s.withFreshTray run.player = s.withFreshTray run'.player :=
    fun s => by
      unfold withFreshTray
      rw [Player.dealTray_congr hpool hrelics hrerolls]
  unfold startWith
  dsimp only
  rw [hfloor, hmodifiers, hhand]
  exact htray _

/-- **An encounter starts the same from the same outset**: neither hit points nor gold, nor
what was counted on the way, have a part in it. -/
theorem start_congr (h : run.outset = run'.outset) (bestiary : Bestiary)
    (challenge : Challenge) : start run bestiary challenge = start run' bestiary challenge := by
  obtain ⟨hseed, hfloor, -, -, hpool, -, -⟩ := Outset.mk.inj h
  unfold start
  rw [hseed, hfloor, hpool]
  simp only [startWith_congr h]

end Session

/-! ## What is settled -/

/-- Whatever a run did on the way, its outset is the settled one if relics alone have changed
the rerolls. -/
theorem Run.outset_eq {settings : Settings α} {floor : Nat} {relics : List Relic}
    {run run' : Run α} (h : run.outset = settings.outset floor relics)
    (hseed : run'.progress.seed = run.progress.seed)
    (hmodifiers : run'.progress.modifiers = run.progress.modifiers)
    (hhand : run'.player.hand = run.player.hand)
    (hpool : run'.player.dicePool = run.player.dicePool)
    (hrerolls : run'.player.rerollsPerTurn + relics.count .loadedDice
      = run.player.rerollsPerTurn + run'.player.relics.count .loadedDice) :
    run'.outset = settings.outset run'.progress.floor run'.player.relics := by
  obtain ⟨hseed', -, hmodifiers', hhand', hpool', -, hrerolls'⟩ := Outset.mk.inj h
  rw [hrerolls'] at hrerolls
  unfold Run.outset Settings.outset
  rw [hseed, hmodifiers, hhand, hpool, hseed', hmodifiers', hhand', hpool']
  congr 1
  omega

namespace Game

variable {settings : Settings α} {bestiary : Bestiary} {g g' : Game α}

/-- **What is settled in a game** by how it was set up, by the floor, and by the relics. -/
structure Settled (settings : Settings α) (bestiary : Bestiary) (g : Game α) : Prop where
  /-- The monsters are those that the game was set up with. -/
  bestiary : g.bestiary = bestiary
  /-- Ten floors make an act. -/
  act : g.run.progress.act = g.run.progress.floor / Progress.floorsPerAct + 1
  /-- Encounters set out from the settings, the floor and the relics. -/
  outset : g.run.outset = settings.outset g.run.progress.floor g.run.player.relics

theorem settled_of_new (h : Game.new settings bestiary = .ok g) : g.Settled settings bestiary := by
  have hact : 1 = 0 / Progress.floorsPerAct + 1 := by decide
  rw [eq_of_new h]
  exact ⟨rfl, hact, rfl⟩

/-- **Every move leaves settled what is settled.** -/
theorem Settled.of_course {m : Move α} {refused : Bool} {events : List (Event α)}
    (h : g.Settled settings bestiary) (hcourse : g.Course m refused g' events) :
    g'.Settled settings bestiary := by
  cases hcourse with
  | refused _ => exact h
  | look => exact h
  | start _ _ _ => exact ⟨h.bestiary, h.act, h.outset⟩
  | win _ _ => exact ⟨h.bestiary, rfl, Run.outset_eq h.outset rfl rfl rfl rfl rfl⟩
  | lose _ _ => exact ⟨h.bestiary, h.act, h.outset⟩
  | giveUp => exact ⟨h.bestiary, h.act, h.outset⟩
  | @acquire r p hp =>
    refine ⟨h.bestiary, h.act, Run.outset_eq h.outset rfl rfl (Player.of_addRelic hp).2.1
      (Player.dicePool_addRelic hp) ?_⟩
    show p.rerollsPerTurn + _ = _ + p.relics.count _
    rw [Player.rerollsPerTurn_addRelic hp, (Player.of_addRelic hp).2.2, List.count_append]
    omega
  | @turn s t _ ht =>
    obtain ⟨raw, -, rfl⟩ := Session.submit_eq_ok_iff.mp ht
    have hkeeps {β : Type} (f : Player → β)
        (hf : ∀ p hp maxHp gold relics,
          f { p with hp := hp, maxHp := maxHp, gold := gold, relics := relics } = f p) :=
      s.resolve_keeps g.run g.settings.balance raw f hf
    refine ⟨h.bestiary, h.act, Run.outset_eq h.outset rfl rfl
      (hkeeps Player.hand fun _ _ _ _ _ => rfl) (hkeeps Player.dicePool fun _ _ _ _ _ => rfl) ?_⟩
    show (s.resolve g.run g.settings.balance raw).run.player.rerollsPerTurn + _
      = _ + (s.resolve g.run g.settings.balance raw).run.player.relics.count _
    rw [hkeeps Player.rerollsPerTurn fun _ _ _ _ _ => rfl,
      s.count_relics_resolve g.run g.settings.balance raw (r := .loadedDice) nofun]
  | deed hm hturn _ hd =>
    cases Scene.becomes_of_perform? hd with
    | edit _ _ => exact ⟨h.bestiary, h.act, h.outset⟩
    | target _ => exact ⟨h.bestiary, h.act, h.outset⟩
    | reroll _ =>
      refine ⟨h.bestiary, h.act, Run.outset_eq h.outset rfl rfl (Player.hand_onReroll _)
        (Player.dicePool_onReroll _) ?_⟩
      show (Player.onReroll _).rerollsPerTurn + _ = _ + (Player.onReroll _).relics.count _
      rw [Player.rerollsPerTurn_onReroll, Player.relics_onReroll]
      rfl
    | turn _ => exact absurd rfl hturn
    | acquire _ => exact absurd hm (Move.deed?_ne_acquire _ _)

/-- **What is settled stays settled** in every history. -/
theorem settled_after (hnew : Game.new settings bestiary = .ok g) (moves : List (Move α)) :
    (g.after moves).Settled settings bestiary :=
  history_induction (P := fun g _ => g.Settled settings bestiary) (settled_of_new hnew)
    (fun _ _ _ _ _ _ h hcourse => h.of_course hcourse) moves

/-! ## Two histories -/

/-- The encounter that awaits can be told from the monsters and the floor. -/
theorem Settled.nextChallenge_eq (h : g.Settled settings bestiary)
    (h' : g'.Settled settings bestiary) (hfloor : g.run.progress.floor = g'.run.progress.floor) :
    g.nextChallenge = g'.nextChallenge := by
  unfold nextChallenge
  rw [h.bestiary, h'.bestiary, h.act, h'.act, hfloor]

/-- **Encounters do not depend on how a floor was reached.** After any two histories of the same
game that end on the same floor, with the same relics in the same order, with no encounter open
and the run not over, the same encounter awaits; and whichever encounter is started, it starts
alike or is refused alike, and the same is announced. -/
theorem encounter_independent_of_history (hnew : Game.new settings bestiary = .ok g)
    (moves moves' : List (Move α))
    (hfloor : (g.after moves).run.progress.floor = (g.after moves').run.progress.floor)
    (hrelics : (g.after moves).run.player.relics = (g.after moves').run.player.relics)
    (hclosed : (g.after moves).session = none) (hclosed' : (g.after moves').session = none)
    (hlive : (g.after moves).isRunOver = false) (hlive' : (g.after moves').isRunOver = false) :
    (g.after moves).nextChallenge = (g.after moves').nextChallenge
      ∧ ∀ challenge,
        ((g.after moves).startCombat challenge).answer
            = ((g.after moves').startCombat challenge).answer
          ∧ ((g.after moves).startCombat challenge).game.session
            = ((g.after moves').startCombat challenge).game.session
          ∧ ((g.after moves).startCombat challenge).events
            = ((g.after moves').startCombat challenge).events := by
  have h := settled_after hnew moves
  have h' := settled_after hnew moves'
  refine ⟨h.nextChallenge_eq h' hfloor, fun challenge => ?_⟩
  have houtset : (g.after moves).run.outset = (g.after moves').run.outset := by
    rw [h.outset, h'.outset, hfloor, hrelics]
  have hstart : Session.start (g.after moves).run (g.after moves).bestiary challenge
      = Session.start (g.after moves').run (g.after moves').bestiary challenge := by
    rw [h.bestiary, h'.bestiary]
    exact Session.start_congr houtset bestiary challenge
  unfold startCombat
  rw [hlive, hlive', hclosed, hclosed', hstart]
  cases Session.start (g.after moves').run (g.after moves').bestiary challenge with
  | error fault => exact ⟨rfl, hclosed.trans hclosed'.symm, rfl⟩
  | ok s =>
    refine ⟨rfl, rfl, ?_⟩
    show [Event.combat (.started (summarize _ s))] = [Event.combat (.started (summarize _ s))]
    unfold summarize
    rw [hfloor, h.act, h'.act, hfloor]

/-- A rat is hit exactly in the first turn. -/
def quickHunt : List (Move Rat) :=
  [.startCombat (.monster "rat"), .placeDie ⟨1⟩, .placeOperator 0, .placeDie ⟨2⟩, .submit,
    .finishCombat]

/-- A rat is first struck too lightly and slain in the second turn. -/
def slowHunt : List (Move Rat) :=
  [.startCombat (.monster "rat"), .placeDie ⟨0⟩, .submit, .placeDie ⟨4⟩, .placeOperator 0,
    .placeDie ⟨2⟩, .submit, .finishCombat]

/-- The two hunts leave the player with other hit points and other gold, and yet the second
floor begins alike. -/
theorem encounter_independent_of_hunt :
    ∃ g : Game Rat, Game.new .standard .builtIn = .ok g
      ∧ (g.after quickHunt).run.player.hp ≠ (g.after slowHunt).run.player.hp
      ∧ (g.after quickHunt).run.player.gold ≠ (g.after slowHunt).run.player.gold
      ∧ ∀ challenge, ((g.after quickHunt).startCombat challenge).answer
        = ((g.after slowHunt).startCombat challenge).answer := by
  obtain ⟨g, hnew, hhp, hgold, hfloor, hrelics, hclosed, hlive⟩ :
      ∃ g : Game Rat, Game.new .standard .builtIn = .ok g
        ∧ (g.after quickHunt).run.player.hp ≠ (g.after slowHunt).run.player.hp
        ∧ (g.after quickHunt).run.player.gold ≠ (g.after slowHunt).run.player.gold
        ∧ (g.after quickHunt).run.progress.floor = (g.after slowHunt).run.progress.floor
        ∧ (g.after quickHunt).run.player.relics = (g.after slowHunt).run.player.relics
        ∧ ((g.after quickHunt).session = none ∧ (g.after slowHunt).session = none)
        ∧ (g.after quickHunt).isRunOver = false ∧ (g.after slowHunt).isRunOver = false :=
    ⟨_, rfl, by decide +kernel⟩
  have halike := encounter_independent_of_history hnew quickHunt slowHunt hfloor hrelics
    hclosed.1 hclosed.2 hlive.1 hlive.2
  exact ⟨g, hnew, hhp, hgold, fun challenge => (halike.2 challenge).1⟩

end Game

end Arithmancy
