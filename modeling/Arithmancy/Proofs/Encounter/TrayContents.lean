import Arithmancy.Proofs.Chance.Draws
import Arithmancy.Proofs.Encounter.Deeds
import Arithmancy.Proofs.Encounter.Spoils
import Arithmancy.Proofs.Encounter.TrayDraws

/-!
# What lies on a tray

A tray is a picture of the player. First come the dice of the pool in their order, and then one
die for each relic that adds one, in the order in which these were acquired: a copy of some die
that lies there already, or a bonus die (`Tray.Composed`). All of them are numbered by their
places. This does not change while the tray is played with, since to roll a die or to hold it is
to change what it shows and nothing else of it.

What a die shows is one of its faces when it is rolled. One relic raises rolls, and stops at the
highest face; so what is raised by it need not be a face, but lies between one and the highest
(`Die.Shows`). A relic that is acquired may claim a die that is not there yet, and dice show
their faces as long as the relic that raises them is not owned. So the tray is that of a player
who may have owned fewer relics when it was dealt (`Session.Mirrors`).
-/

namespace Arithmancy

/-! ## What dice show -/

namespace DieSpec

/-- All faces are positive. -/
theorem one_le_of_mem_faces {d : DieSpec} : ∀ n ∈ d.faces, 1 ≤ n := by
  obtain ⟨t, c⟩ := d
  cases t <;> cases c <;> decide

theorem le_maxFace_of_mem_faces {d : DieSpec} {n : Nat} (h : n ∈ d.faces) : n ≤ d.maxFace :=
  List.le_max?_getD_of_mem h

end DieSpec

namespace Die

/-- **What a die shows is a number it can show** for a player with some relics: it lies between
one and the highest of the faces, and it is one of them unless the relic is owned that raises
rolls. -/
def Shows (relics : List Relic) (d : Die) : Prop :=
  ∃ n, d.value = some n ∧ 1 ≤ n ∧ n ≤ d.spec.maxFace ∧ (.chaosOrb ∉ relics → n ∈ d.spec.faces)

variable {σ α : Type} [Scalar α] [Source σ α] {relics relics' : List Relic} {d : Die}

omit [Scalar α] [Source σ α] in
theorem shows_of_mem_faces {n : Nat} (hvalue : d.value = some n) (h : n ∈ d.spec.faces) :
    d.Shows relics :=
  ⟨n, hvalue, d.spec.one_le_of_mem_faces n h, d.spec.le_maxFace_of_mem_faces h, fun _ => h⟩

theorem shows_roll (d : Die) (s : σ) : (d.roll s).1.Shows relics :=
  shows_of_mem_faces (d := (d.roll s).1) rfl (d.spec.roll_mem_faces s)

omit [Scalar α] [Source σ α] in
/-- A player who does not own the relic that raises rolls did not own it before. -/
theorem Shows.of_relics (h : d.Shows relics) (hmem : .chaosOrb ∈ relics → .chaosOrb ∈ relics') :
    d.Shows relics' := by
  obtain ⟨n, hvalue, hlow, hhigh, hface⟩ := h
  exact ⟨n, hvalue, hlow, hhigh, fun hnot => hface fun horb => hnot (hmem horb)⟩

/-- **A relic adjusts a die** to a number that it can show. -/
theorem Shows.onRoll {r : Relic} (hr : r ∈ relics) (h : d.Shows relics) (s : σ) :
    (r.onRoll d s).1.Shows relics := by
  obtain ⟨id, spec, value, held⟩ := d
  obtain ⟨n, hvalue, hlow, hhigh, hface⟩ := h
  change value = some n at hvalue
  subst hvalue
  cases r with
  | chaosOrb =>
    refine ⟨min (n + 1) spec.maxFace, rfl, ?_, Nat.min_le_right _ _, fun hnot => absurd hr hnot⟩
    exact Nat.le_min.mpr ⟨Nat.le_add_left 1 n, hlow.trans hhigh⟩
  | luckyDice =>
    have hagain := spec.roll_mem_faces s
    refine ⟨max n (spec.roll s).1, rfl, hlow.trans (Nat.le_max_left _ _),
      Nat.max_le.mpr ⟨hhigh, DieSpec.le_maxFace_of_mem_faces hagain⟩, fun hnot => ?_⟩
    -- the higher of two faces is a face
    rcases Nat.le_total n (spec.roll s).1 with hle | hle
    · rw [Nat.max_eq_right hle]
      exact hagain
    · rw [Nat.max_eq_left hle]
      exact hface hnot
  | _ => exact ⟨n, rfl, hlow, hhigh, hface⟩

end Die

namespace Source

variable {σ α β γ : Type} [Scalar α] [Source σ α]

/-- What every draw for a member of a list gives, all that is drawn along the list has. -/
theorem forall_mem_mapDraws {P : γ → Prop} {f : β → σ → γ × σ} {items : List β}
    (h : ∀ b ∈ items, ∀ s, P (f b s).1) (s : σ) : ∀ c ∈ (mapDraws f items s).1, P c := by
  induction items generalizing s with
  | nil => exact List.forall_mem_nil P
  | cons b items ih =>
    obtain ⟨hb, hitems⟩ := List.forall_mem_cons.mp h
    exact List.forall_mem_cons.mpr ⟨hb s, ih hitems _⟩

end Source

namespace Tray

variable {σ α : Type} [Scalar α] [Source σ α] {relics : List Relic}

theorem shows_rollPool (pool : List DieSpec) (s : σ) :
    ∀ d ∈ (rollPool pool s).1, d.Shows relics :=
  Source.forall_mem_mapDraws (fun _ _ s => Die.shows_roll _ s) s

theorem shows_rollUnheld {dice : List Die} (h : ∀ d ∈ dice, d.Shows relics) (s : σ) :
    ∀ d ∈ (Session.rollUnheld dice s).1, d.Shows relics := by
  refine Source.forall_mem_mapDraws (fun d hd s => ?_) s
  split
  · exact h d hd
  · exact Die.shows_roll d s

theorem shows_rollOne (named : List DieId) {r : Relic} (hr : r ∈ relics) {dice : List Die}
    (h : ∀ d ∈ dice, d.Shows relics) (s : σ) :
    ∀ d ∈ (Relics.rollOne named r dice s).1, d.Shows relics := by
  refine Source.forall_mem_mapDraws (fun d hd s => ?_) s
  split
  · exact (h d hd).onRoll hr s
  · exact h d hd

omit [Scalar α] [Source σ α] in
/-- Dice that are held or released show what they showed. -/
theorem shows_flipHeld (id : DieId) {dice : List Die} (h : ∀ d ∈ dice, d.Shows relics) :
    ∀ d ∈ Session.flipHeld id dice, d.Shows relics := by
  intro d hd
  have hsame := map_flipHeld (f := fun d => (d.spec, d.value)) (fun _ _ => rfl) id dice
  obtain ⟨d', hd', heq⟩ := List.mem_map.mp (hsame ▸ List.mem_map_of_mem hd)
  obtain ⟨hspec, hvalue⟩ := Prod.mk.inj heq
  have hshows := h d' hd'
  unfold Die.Shows at hshows ⊢
  rwa [hspec, hvalue] at hshows

/-- **The relics of a player adjust dice** to numbers that they can show. -/
theorem shows_onRoll (named : List DieId) {dice : List Die} (h : ∀ d ∈ dice, d.Shows relics)
    (s : σ) : ∀ d ∈ (Relics.onRoll relics dice named s).1, d.Shows relics :=
  List.foldlRecOn (motive := fun x : List Die × σ => ∀ d ∈ x.1, d.Shows relics) _ _ h
    fun x hx _ hr => shows_rollOne named (List.mem_of_mem_filter hr) hx x.2

end Tray

/-! ## Which dice there are -/

/-- **The relics that add a die** to a tray, in the order in which they were acquired. -/
def Player.diceRelics (p : Player) : List Relic := p.relics.filter Relic.addsDie

namespace Tray

/-- **The kinds of dice on a tray**, given the pool and the relics that added one die each: the
pool is followed by a copy of a die that lies there, or by a bonus die, for one relic after the
other. -/
inductive Composed (pool : List DieSpec) : List Relic → List DieSpec → Prop where
  /-- The dice of the pool come first. -/
  | pool : Composed pool [] pool
  /-- One relic adds a copy of a die before it. -/
  | mirror {relics : List Relic} {specs : List DieSpec} {spec : DieSpec}
      (h : Composed pool relics specs) (hmem : spec ∈ specs) :
      Composed pool (relics ++ [.mirrorShard]) (specs ++ [spec])
  /-- One relic adds a bonus die. -/
  | bonus {relics : List Relic} {specs : List DieSpec} (h : Composed pool relics specs) :
      Composed pool (relics ++ [.extraHand]) (specs ++ [bonusDie])

/-- **A tray mirrors a pool and some relics** if its dice are of the kinds that these bring, and
each die is numbered by its place. -/
structure Mirrors (pool : List DieSpec) (relics : List Relic) (dice : List Die) : Prop where
  /-- The dice are numbered by their places, from zero on. -/
  numbered : ids dice = (List.range dice.length).map DieId.mk
  /-- The dice of the pool are followed by one die for each relic. -/
  composed : Composed pool relics (dice.map (·.spec))

/-- The dice of the pool are never missing. -/
theorem Composed.pool_prefix {pool : List DieSpec} {relics : List Relic} {specs : List DieSpec}
    (h : Composed pool relics specs) : pool <+: specs := by
  induction h with
  | pool => exact List.prefix_rfl
  | mirror _ _ ih => exact ih.trans (List.prefix_append _ _)
  | bonus _ ih => exact ih.trans (List.prefix_append _ _)

/-- **On a tray that is numbered by places**, the next number is the next place. -/
theorem nextDieId_eq {dice : List Die} (h : ids dice = (List.range dice.length).map DieId.mk) :
    nextDieId dice = ⟨dice.length⟩ := by
  have hnext : dice.map (fun d => d.id.number + 1) = (List.range dice.length).map (· + 1) := by
    calc dice.map (fun d => d.id.number + 1)
        = (ids dice).map (·.number + 1) := by rw [ids, List.map_map]; rfl
      _ = (List.range dice.length).map (· + 1) := by rw [h, List.map_map]; rfl
  have hmax : ((List.range dice.length).map (· + 1)).max?.getD 0 = dice.length := by
    cases dice.length with
    | zero => rfl
    | succ n =>
      have hsome : ((List.range (n + 1)).map (· + 1)).max? = some (n + 1) := by
        rw [List.max?_eq_some_iff]
        simp
      rw [hsome, Option.getD_some]
  rw [nextDieId, hnext, hmax]

theorem numbered_concat {dice : List Die}
    (h : ids dice = (List.range dice.length).map DieId.mk) {d : Die} (hd : d.id = nextDieId dice) :
    ids (dice ++ [d]) = (List.range (dice ++ [d]).length).map DieId.mk := by
  rw [List.length_append, List.length_singleton, List.range_succ, List.map_append, ← h,
    List.map_singleton, ← nextDieId_eq h, ← hd, ids, List.map_append]
  rfl

namespace Mirrors

variable {pool : List DieSpec} {relics : List Relic} {dice dice' : List Die}

/-- Whatever keeps identities and kinds keeps the picture. -/
theorem of_eq (h : Mirrors pool relics dice) (hids : ids dice' = ids dice)
    (hspecs : dice'.map (·.spec) = dice.map (·.spec)) : Mirrors pool relics dice' where
  numbered := by
    have hlength := congrArg List.length hids
    rw [ids, ids, List.length_map, List.length_map] at hlength
    rw [hids, hlength, h.numbered]
  composed := hspecs ▸ h.composed

/-- Dice that are rolled are the same dice. -/
theorem rolled {named : List DieId} (h : Mirrors pool relics dice)
    (hrolled : Rolled named dice dice') : Mirrors pool relics dice' :=
  h.of_eq hrolled.ids_eq hrolled.specs_eq

/-- **A relic adds its die** at the end, and no other relic adds one. -/
theorem onCombatStart {σ α : Type} [Scalar α] [Source σ α] (hpool : pool ≠ []) {deal : Deal}
    (h : Mirrors pool relics deal.dice) (r : Relic) (s : σ) :
    Mirrors pool (relics ++ [r].filter Relic.addsDie) (r.onCombatStart deal s).1.dice := by
  have hspecs (d : Die) : (deal.dice ++ [d]).map (·.spec) = deal.dice.map (·.spec) ++ [d.spec] :=
    List.map_append
  cases r with
  | mirrorShard =>
    have hdice : deal.dice ≠ [] := by
      intro hnil
      have hprefix := h.composed.pool_prefix
      rw [hnil] at hprefix
      exact hpool (List.prefix_nil.mp hprefix)
    obtain ⟨d, hmem, s', hpick⟩ := Source.exists_pick hdice s
    have hspec : d.spec ∈ deal.dice.map (·.spec) := List.mem_map_of_mem hmem
    show Mirrors pool (relics ++ [.mirrorShard]) (Relic.mirrorDie deal.dice s).1
    rw [Relic.mirrorDie, hpick]
    exact ⟨numbered_concat h.numbered rfl, hspecs _ ▸ h.composed.mirror hspec⟩
  | extraHand => exact ⟨numbered_concat h.numbered rfl, hspecs _ ▸ h.composed.bonus⟩
  | _ => exact (List.append_nil relics).symm ▸ h

/-- **The relics of a player add their dice**, one after the other. -/
theorem dealAll {σ α : Type} [Scalar α] [Source σ α] (hpool : pool ≠ []) (rs : List Relic)
    (deal : Deal) (h : Mirrors pool relics deal.dice) (s : σ) :
    Mirrors pool (relics ++ rs.filter Relic.addsDie) (Relics.dealAll rs deal s).1.dice := by
  induction rs generalizing relics deal s with
  | nil => exact (List.append_nil relics).symm ▸ h
  | cons r rs ih =>
    have hrest := ih _ (h.onCombatStart hpool r s) (r.onCombatStart deal s).2
    rw [List.append_assoc, ← List.filter_append] at hrest
    exact hrest

end Mirrors

end Tray

/-! ## Fresh trays -/

namespace Relic

variable {relics : List Relic}

/-- A copy of a die shows what the die shows, and a bonus die one of its faces. -/
theorem shows_onCombatStart (r : Relic) {deal : Deal} (h : ∀ d ∈ deal.dice, d.Shows relics)
    (g : Generator Float) : ∀ d ∈ (r.onCombatStart deal g).1.dice, d.Shows relics := by
  have hconcat {d : Die} (hd : d.Shows relics) : ∀ d' ∈ deal.dice ++ [d], d'.Shows relics := by
    intro d' hd'
    rcases List.mem_append.mp hd' with hold | hnew
    · exact h d' hold
    · exact List.mem_singleton.mp hnew ▸ hd
  cases r with
  | mirrorShard =>
    show ∀ d ∈ (mirrorDie deal.dice g).1, d.Shows relics
    by_cases hdice : deal.dice = []
    · rw [hdice]
      exact List.forall_mem_nil _
    · obtain ⟨d, hmem, g', hpick⟩ := Source.exists_pick hdice g
      rw [mirrorDie, hpick]
      exact hconcat (h d hmem)
  | extraHand =>
    obtain ⟨hlow, hhigh⟩ := g.nextInt_mem (show 0 < bonusDie.dieType.sides by decide) (by decide)
    have hface : (Source.nextInt 1 (bonusDie.dieType.sides : Int) g).1.toNat ∈ bonusDie.faces := by
      have hsix : ((bonusDie.dieType.sides : Nat) : Int) = 6 := rfl
      show _ ∈ List.range' 1 6
      rw [List.mem_range'_1]
      omega
    exact hconcat (Die.shows_of_mem_faces rfl hface)
  | _ => exact h

end Relic

/-- The relics that add dice take part when a tray is dealt. -/
theorem Player.filter_withHook_combatStart (p : Player) :
    (Relics.withHook .combatStart p.relics).filter Relic.addsDie = p.diceRelics := by
  rw [Relics.withHook, List.filter_filter, diceRelics]
  refine List.filter_congr fun r _ => ?_
  cases r <;> rfl

/-- **A fresh tray mirrors the player** to whom it is dealt. -/
theorem Tray.mirrors_dealTray {σ α : Type} [Scalar α] [Source σ α] {p : Player}
    (hpool : p.dicePool ≠ []) (s : σ) :
    Mirrors p.dicePool p.diceRelics (p.dealTray s).1.dice := by
  have hspecs : (rollPool p.dicePool s).1.map (·.spec) = p.dicePool := by
    rw [rollPool, Source.map_mapDraws Prod.fst fun _ _ _ => rfl]
    exact List.zipIdx_map_fst 0 p.dicePool
  have hrolled : Mirrors p.dicePool [] (rollPool p.dicePool s).1 := by
    refine ⟨?_, hspecs.symm ▸ .pool⟩
    have hlength := congrArg List.length hspecs
    rw [List.length_map] at hlength
    rw [ids_rollPool, hlength]
  have hadjusted := hrolled.rolled (rolled_onRoll (ids (rollPool p.dicePool s).1) p.relics
    (rollPool p.dicePool s).1 (rollPool p.dicePool s).2)
  rw [← p.filter_withHook_combatStart]
  exact Mirrors.dealAll hpool _ ⟨_, p.rerollsPerTurn⟩ hadjusted _

/-- **A fresh tray shows** what the player's dice can show. -/
theorem Tray.shows_dealTray (p : Player) (g : Generator Float) :
    ∀ d ∈ (p.dealTray g).1.dice, d.Shows p.relics :=
  List.foldlRecOn (motive := fun x : Deal × Generator Float => ∀ d ∈ x.1.dice, d.Shows p.relics)
    _ _ (shows_onRoll _ (shows_rollPool p.dicePool g) _) fun x hx r _ =>
      r.shows_onCombatStart hx x.2

/-! ## Encounters -/

namespace Session

/-- **The tray of an encounter mirrors the player.** Its dice are those of the pool and one for
each relic that adds a die, where the relics that were acquired last may still miss theirs; and
all dice show what they can show. -/
structure Mirrors {α : Type} (s : Session α) (p : Player) : Prop where
  /-- The relics that have added a die were acquired before those that have not. -/
  tray : ∃ relics, relics <+: p.diceRelics ∧ Tray.Mirrors p.dicePool relics s.dice
  /-- The dice show what they can show. -/
  shows : ∀ d ∈ s.dice, d.Shows p.relics

variable {s s' : Session Float} {p p' : Player}

/-- A session with a fresh tray mirrors the player. -/
theorem mirrors_withFreshTray (hpool : p.dicePool ≠ []) (s : Session Float) :
    (s.withFreshTray p).Mirrors p where
  tray := ⟨p.diceRelics, List.prefix_rfl, Tray.mirrors_dealTray hpool s.generator⟩
  shows := Tray.shows_dealTray p s.generator

namespace Mirrors

/-- **A player who loses no relic** that has to do with the tray still has the tray that was
dealt. -/
theorem of_player (h : s.Mirrors p) (hpool : p'.dicePool = p.dicePool)
    (hrelics : p.diceRelics <+: p'.diceRelics)
    (horb : .chaosOrb ∈ p.relics → .chaosOrb ∈ p'.relics) : s.Mirrors p' := by
  obtain ⟨relics, hprefix, htray⟩ := h.tray
  exact ⟨⟨relics, hprefix.trans hrelics, hpool ▸ htray⟩, fun d hd => (h.shows d hd).of_relics horb⟩

theorem toggleHold (h : s.Mirrors p) {id : DieId} (ht : s.toggleHold? id = some s') :
    s'.Mirrors p := by
  obtain ⟨-, -, rfl⟩ := toggleHold?_eq_some_iff.mp ht
  obtain ⟨relics, hprefix, htray⟩ := h.tray
  have hspecs := Tray.map_flipHeld (f := Die.spec) (fun _ _ => rfl) id s.dice
  exact ⟨⟨relics, hprefix, htray.of_eq (Tray.ids_flipHeld id s.dice) hspecs⟩,
    Tray.shows_flipHeld id h.shows⟩

theorem reroll (h : s.Mirrors p) (hr : s.reroll? p = some (s', p')) : s'.Mirrors p' := by
  obtain ⟨-, -, hp, dice, _, hrolled, hs'⟩ := exists_of_reroll? hr
  have hshows : ∀ d ∈ s'.dice, d.Shows p.relics := by
    unfold reroll? at hr
    split at hr
    · cases hr
    · obtain ⟨rfl, -⟩ := Prod.mk.inj (Option.some.inj hr)
      exact Tray.shows_onRoll _ (Tray.shows_rollUnheld h.shows _) _
  obtain ⟨relics, hprefix, htray⟩ := h.tray
  have hmirrors : s'.Mirrors p := by
    refine ⟨⟨relics, hprefix, ?_⟩, hshows⟩
    rw [hs']
    exact htray.rolled hrolled
  have hrelics := p.relics_onReroll
  rw [hp]
  refine hmirrors.of_player p.dicePool_onReroll ?_ ?_
  · rw [Player.diceRelics, Player.diceRelics, hrelics]
  · rw [hrelics]
    exact id

/-- **A turn** deals a fresh tray, or leaves the tray to the encounter that is over. -/
theorem submit (h : s.Mirrors p) {run : Run Float} (hp : run.player = p) {balance : Balance Float}
    (hpool : p.dicePool ≠ []) {t : TurnResult Float} (ht : s.submit run balance = .ok t) :
    t.session.Mirrors t.run.player := by
  subst hp
  obtain ⟨raw, -, rfl⟩ := submit_eq_ok_iff.mp ht
  have hsame := s.dicePool_resolve run balance raw
  rcases s.tray_resolve run balance raw with ⟨-, hdice⟩ | ⟨s', hfresh⟩
  · have hrelics := s.filter_relics_resolve run balance raw (f := Relic.addsDie) rfl
    have horb := s.count_relics_resolve run balance raw (r := .chaosOrb) nofun
    have hkept : (s.resolve run balance raw).session.Mirrors run.player :=
      ⟨hdice.symm ▸ h.tray, hdice.symm ▸ h.shows⟩
    refine hkept.of_player hsame ?_ fun hmem => ?_
    · rw [Player.diceRelics, Player.diceRelics, hrelics]
    · rw [← List.count_pos_iff] at hmem ⊢
      rwa [horb]
  · rw [hfresh]
    exact mirrors_withFreshTray (hsame.symm ▸ hpool) s'

theorem acquire (h : s.Mirrors p) {r : Relic} (hp : p.addRelic r = .ok p') : s.Mirrors p' := by
  obtain ⟨-, -, hrelics⟩ := Player.of_addRelic hp
  refine h.of_player (Player.dicePool_addRelic hp) ?_ fun hmem => ?_
  · rw [Player.diceRelics, Player.diceRelics, hrelics, List.filter_append]
    exact List.prefix_append _ _
  · rw [hrelics]
    exact List.mem_append_left _ hmem

/-- **Every deed** that is not refused leaves a tray that mirrors the player. -/
theorem of_perform? {c c' : Scene Float} (h : c.session.Mirrors c.player)
    (hpool : c.player.dicePool ≠ []) {balance : Balance Float} {d : Deed Float}
    (hd : c.perform? balance d = some c') : c'.session.Mirrors c'.player := by
  cases d with
  | toggleHold id =>
    obtain ⟨s, hs, rfl⟩ := Option.map_eq_some_iff.mp hd
    exact h.toggleHold hs
  | reroll =>
    obtain ⟨⟨s, p⟩, hs, rfl⟩ := Option.map_eq_some_iff.mp hd
    exact h.reroll hs
  | rerollBossTarget =>
    obtain ⟨s, hs, rfl⟩ := Option.map_eq_some_iff.mp hd
    obtain ⟨-, -, -, _, rfl⟩ := exists_of_rerollBossTarget? hs
    exact ⟨h.tray, h.shows⟩
  | submit =>
    obtain ⟨t, ht, rfl⟩ := Scene.toOption_map_eq_some_iff.mp hd
    exact h.submit rfl hpool ht
  | acquire r =>
    obtain ⟨p, hp, rfl⟩ := Scene.toOption_map_eq_some_iff.mp hd
    exact h.acquire hp
  | _ =>
    obtain ⟨e, rfl⟩ := Scene.exists_expression_of_perform? hd rfl nofun
    exact ⟨h.tray, h.shows⟩

end Mirrors

/-- An encounter starts with a fresh tray. -/
theorem mirrors_of_start {run : Run Float} {bestiary : Bestiary} {challenge : Challenge}
    (hpool : run.player.dicePool ≠ []) (h : start run bestiary challenge = .ok s) :
    s.Mirrors run.player := by
  obtain ⟨_, _, _, -, -, rfl⟩ := exists_of_start h
  exact mirrors_withFreshTray hpool _

end Session

end Arithmancy
