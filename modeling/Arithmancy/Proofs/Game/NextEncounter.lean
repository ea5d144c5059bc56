import Arithmancy.Proofs.Chance.Draws
import Arithmancy.Proofs.Game.Independence
import Arithmancy.Proofs.Game.RandomStream

/-!
# The encounter that awaits can start

A game asks its bestiary twice: once for the monsters to draw from or the boss of an act, and
once for the monster with the identity that came out. The two answers agree where a bestiary is a
list of monsters, for the identities that are listed are those of its monsters. Whether there is
anything to draw from is another matter; in the bestiary that the game comes with there is, for
an elite as well as for a regular monster.

So whoever plays with that bestiary finds the encounter that awaits on each floor, with dice to
play it (`Game.exists_start_nextChallenge`).
-/

namespace Arithmancy

/-! ## Bestiaries -/

namespace Bestiary

variable {templates : List Template} {bossTier : Nat → Nat} {id : String}

/-- Whoever is in a list of monsters is found by identity. -/
theorem isSome_template? {t : Template} (h : t ∈ templates) :
    ((ofList templates bossTier).template? t.id).isSome = true :=
  List.find?_isSome.mpr ⟨t, h, beq_self_eq_true _⟩

theorem isSome_template?_of_mem_idsWhere {p : Template → Bool} (h : id ∈ idsWhere templates p) :
    ((ofList templates bossTier).template? id).isSome = true := by
  obtain ⟨t, ht, rfl⟩ := List.mem_map.mp h
  exact isSome_template? (List.mem_filter.mp ht).1

/-- **The boss of an act is found.** -/
theorem isSome_template?_of_bossForAct? {act : Nat}
    (h : (ofList templates bossTier).bossForAct? act = some id) :
    ((ofList templates bossTier).template? id).isSome = true := by
  obtain ⟨t, ht, rfl⟩ := Option.map_eq_some_iff.mp h
  exact isSome_template? (List.mem_of_find?_eq_some ht)

/-- **Whoever is drawn from is found.** -/
theorem isSome_template?_of_mem_candidates {c : Challenge}
    (h : id ∈ c.candidates (ofList templates bossTier)) :
    ((ofList templates bossTier).template? id).isSome = true := by
  unfold Challenge.candidates at h
  split at h <;> exact isSome_template?_of_mem_idsWhere h

/-- **Every act ends with a boss** of the tier that is meant for it, in the bestiary that the game
comes with. -/
theorem bossTier_builtIn (act : Nat) : builtIn.bossTier act = some (builtInBossTier act) := by
  have hnamed (tier : Nat) (h : tier ∈ [10, 20, 30]) :
      ((builtIn.templates.find? fun t => t.tier == tier && t.boss.isSome).map (·.id)
        >>= builtIn.template?).map (·.tier) = some tier := by
    revert tier
    decide
  refine hnamed (builtInBossTier act) ?_
  unfold builtInBossTier
  split
  · decide
  · split <;> decide

end Bestiary

/-- Whether or not an elite is asked for, there are monsters to draw from. -/
theorem Challenge.candidates_builtIn_ne_nil (c : Challenge) : c.candidates .builtIn ≠ [] := by
  rcases c with ⟨monsterId, _ | _⟩
  · show Bestiary.builtIn.regulars 1 ≠ []
    decide
  · show Bestiary.builtIn.elites 2 ≠ []
    decide

variable {α : Type} [Scalar α]

/-! ## The start of an encounter -/

namespace Session

/-- **An encounter starts** if there are dice to roll, if the monster is found in the bestiary when
it is named, and if there are some to draw from when it is not, all of which are found. -/
theorem exists_start {run : Run α} {bestiary : Bestiary} {challenge : Challenge}
    (hpool : run.player.dicePool ≠ [])
    (hnamed : ∀ id, challenge.monsterId = some id → (bestiary.template? id).isSome = true)
    (hdrawn : challenge.monsterId = none → challenge.candidates bestiary ≠ [])
    (hlisted : ∀ id ∈ challenge.candidates bestiary, (bestiary.template? id).isSome = true) :
    ∃ s, start run bestiary challenge = .ok s := by
  obtain ⟨id, generator, hchoose, hfound⟩ : ∃ id generator,
      challenge.choose bestiary
        (Generator.forFloor run.progress.seed run.progress.floor : Generator α)
          = .ok (id, generator)
        ∧ (bestiary.template? id).isSome = true := by
    unfold Challenge.choose
    cases hid : challenge.monsterId with
    | some id => exact ⟨id, _, rfl, hnamed id hid⟩
    | none =>
      obtain ⟨id, hmem, generator, hpick⟩ := Source.exists_pick (hdrawn hid)
        (Generator.forFloor run.progress.seed run.progress.floor : Generator α)
      dsimp only
      rw [hpick]
      exact ⟨id, generator, rfl, hlisted id hmem⟩
  obtain ⟨template, htemplate⟩ := Option.isSome_iff_exists.mp hfound
  unfold start
  rw [if_neg (by rwa [List.isEmpty_iff])]
  dsimp only
  rw [hchoose]
  dsimp only
  rw [htemplate]
  exact ⟨_, rfl⟩

end Session

namespace Game

variable {settings : Settings α} {bestiary : Bestiary} {g : Game α}

omit [Scalar α] in
/-- If the monster that awaits is named it is a boss of the bestiary. -/
theorem bossForAct?_of_nextChallenge {id : String} (h : g.nextChallenge.monsterId = some id) :
    g.bestiary.bossForAct? g.run.progress.act = some id := by
  unfold nextChallenge at h
  dsimp only at h
  split at h
  · cases hboss : g.bestiary.bossForAct? g.run.progress.act with
    | none =>
      rw [hboss] at h
      cases h
    | some boss =>
      rw [hboss] at h
      exact h
  · cases h

/-- The player of a settled game has dice. -/
theorem Settled.dicePool_ne_nil (h : g.Settled settings bestiary) :
    g.run.player.dicePool ≠ [] := by
  have hpool : g.run.player.dicePool = _ := congrArg Outset.dicePool h.outset
  rw [hpool]
  exact Run.penalized_ne_nil settings.loadout.dice_ne_nil _

/-- **The encounter that awaits can start** in every game with the monsters that the game comes
with. -/
theorem exists_start_nextChallenge (h : g.Settled settings .builtIn) :
    ∃ s, Session.start g.run g.bestiary g.nextChallenge = .ok s := by
  have hboss : ∀ id, g.nextChallenge.monsterId = some id →
      g.bestiary.bossForAct? g.run.progress.act = some id := fun _ => bossForAct?_of_nextChallenge
  rw [h.bestiary] at hboss ⊢
  exact Session.exists_start h.dicePool_ne_nil
    (fun id hid => Bestiary.isSome_template?_of_bossForAct? (hboss id hid))
    (fun _ => Challenge.candidates_builtIn_ne_nil _)
    fun _ hmem => Bestiary.isSome_template?_of_mem_candidates hmem

/-- If no encounter is open and the run is not over, the encounter that awaits is started when
it is asked for. -/
theorem exists_startCombat_nextChallenge (h : g.Settled settings .builtIn)
    (hclosed : g.session = none) (hlive : g.isRunOver = false) :
    ∃ s, (g.startCombat g.nextChallenge).answer = .ok s
      ∧ (g.startCombat g.nextChallenge).game = g.withSession s := by
  obtain ⟨s, hs⟩ := exists_start_nextChallenge h
  unfold startCombat
  rw [hlive, hclosed, hs]
  exact ⟨s, rfl, rfl⟩

end Game

end Arithmancy
