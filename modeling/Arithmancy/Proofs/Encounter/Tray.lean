import Mathlib.Data.List.Forall2
import Mathlib.Data.List.Nodup
import Arithmancy.Encounter.Edit
import Arithmancy.Encounter.Reroll
import Arithmancy.Encounter.Start

/-!
# Trays

Dice come onto a tray in three ways: the pool is rolled, dice are rolled again, and
relics add dice of their own. Rolling changes what a die shows and nothing else about
it, and it changes no die that it does not name (`Tray.Rolled`). A die that a relic adds
is numbered after all others. So no two dice of a tray have the same identity
(`nodup_dealTray`), and a reroll leaves the dice that are held as they are
(`rolled_rollUnheld`).
-/

namespace Arithmancy

/-! ## Draws along a list -/

namespace Source

variable {σ α β γ : Type} [Scalar α] [Source σ α]

/-- What holds of every single draw holds along a list. -/
theorem forall₂_mapDraws {R : β → γ → Prop} {f : β → σ → γ × σ} (h : ∀ b s, R b (f b s).1)
    (items : List β) (s : σ) : List.Forall₂ R items (mapDraws f items s).1 := by
  induction items generalizing s with
  | nil => exact .nil
  | cons b bs ih => exact .cons (h b s) (ih (f b s).2)

theorem map_mapDraws {δ : Type} {f : β → σ → γ × σ} {g : γ → δ} (g' : β → δ) {items : List β}
    (h : ∀ b ∈ items, ∀ s, g (f b s).1 = g' b) (s : σ) :
    (mapDraws f items s).1.map g = items.map g' := by
  induction items generalizing s with
  | nil => rfl
  | cons b bs ih =>
    obtain ⟨hb, hbs⟩ := List.forall_mem_cons.mp h
    rw [mapDraws, List.map_cons, List.map_cons, hb, ih hbs]

end Source

namespace Tray

/-! ## What rolling keeps -/

/-- The identities of the dice on a tray. -/
def ids (dice : List Die) : List DieId := dice.map (·.id)

/-- **A die after some dice were rolled**: it is the same die and is held as before, and
if it was not named, it shows what it showed. -/
structure RolledDie (named : List DieId) (d d' : Die) : Prop where
  /-- The identity stays. -/
  id_eq : d'.id = d.id
  /-- The kind of die stays. -/
  spec_eq : d'.spec = d.spec
  /-- Whether it is held stays. -/
  held_eq : d'.held = d.held
  /-- A die that was not named is left alone. -/
  eq_of_not_mem : d.id ∉ named → d' = d

/-- **A tray after some dice were rolled**, die by die. -/
def Rolled (named : List DieId) : List Die → List Die → Prop := List.Forall₂ (RolledDie named)

namespace Rolled

variable {named : List DieId} {dice dice' dice'' : List Die}

theorem refl (named : List DieId) (dice : List Die) : Rolled named dice dice :=
  List.forall₂_same.mpr fun _ _ => ⟨rfl, rfl, rfl, fun _ => rfl⟩

theorem trans (h : Rolled named dice dice') (h' : Rolled named dice' dice'') :
    Rolled named dice dice'' := by
  induction h generalizing dice'' with
  | nil => exact h'
  | cons hd _ ih =>
    cases h' with
    | cons hd' ht' =>
      refine .cons ⟨hd'.id_eq.trans hd.id_eq, hd'.spec_eq.trans hd.spec_eq,
        hd'.held_eq.trans hd.held_eq, fun hnot => ?_⟩ (ih ht')
      rw [hd'.eq_of_not_mem (hd.id_eq ▸ hnot), hd.eq_of_not_mem hnot]

theorem ids_eq (h : Rolled named dice dice') : ids dice' = ids dice := by
  induction h with
  | nil => rfl
  | cons hd _ ih => exact congrArg₂ List.cons hd.id_eq ih

theorem specs_eq (h : Rolled named dice dice') : dice'.map (·.spec) = dice.map (·.spec) := by
  induction h with
  | nil => rfl
  | cons hd _ ih => exact congrArg₂ List.cons hd.spec_eq ih

/-- A die that was not named is still on the tray. -/
theorem mem_of_not_mem (h : Rolled named dice dice') {d : Die} (hd : d ∈ dice)
    (hnot : d.id ∉ named) : d ∈ dice' := by
  induction h with
  | nil => exact hd
  | cons hr _ ih =>
    rcases List.mem_cons.mp hd with rfl | hd
    · rw [hr.eq_of_not_mem hnot]
      exact List.mem_cons_self
    · exact List.mem_cons_of_mem _ (ih hd)

end Rolled

/-! ## Rolls -/

variable {σ α : Type} [Scalar α] [Source σ α]

/-- The pool is rolled onto a tray whose dice carry their places. -/
theorem ids_rollPool (pool : List DieSpec) (s : σ) :
    ids (rollPool pool s).1 = (List.range pool.length).map DieId.mk := by
  rw [ids, rollPool, Source.map_mapDraws (fun p => ⟨p.2⟩) fun _ _ _ => rfl,
    List.range_eq_range', ← List.zipIdx_map_snd 0 pool, List.map_map]
  rfl

theorem rolledDie_onRoll (r : Relic) {named : List DieId} {d : Die} (h : d.id ∈ named) (s : σ) :
    RolledDie named d (r.onRoll d s).1 := by
  unfold Relic.onRoll
  split <;> exact ⟨rfl, rfl, rfl, fun hnot => absurd h hnot⟩

theorem rolled_rollOne (named : List DieId) (r : Relic) (dice : List Die) (s : σ) :
    Rolled named dice (Relics.rollOne named r dice s).1 := by
  refine Source.forall₂_mapDraws (fun d s => ?_) dice s
  by_cases h : d.id ∈ named
  · rw [if_pos (List.contains_iff_mem.mpr h)]
    exact rolledDie_onRoll r h s
  · rw [if_neg fun hc => h (List.contains_iff_mem.mp hc)]
    exact ⟨rfl, rfl, rfl, fun _ => rfl⟩

theorem rolled_rollAll (named : List DieId) (relics : List Relic) (dice : List Die) (s : σ) :
    Rolled named dice (Relics.rollAll relics dice named s).1 :=
  List.foldlRecOn (motive := fun x : List Die × σ => Rolled named dice x.1) _ _
    (.refl named dice) fun x hx r _ => hx.trans (rolled_rollOne named r x.1 x.2)

/-- **Relics adjust the dice that were rolled** and no others. -/
theorem rolled_onRoll (named : List DieId) (relics : List Relic) (dice : List Die) (s : σ) :
    Rolled named dice (Relics.onRoll relics dice named s).1 :=
  rolled_rollAll named _ dice s

/-- **A roll of the dice that are not held** names exactly those. -/
theorem rolled_rollUnheld {named : List DieId} {dice : List Die}
    (h : ∀ d ∈ dice, d.held = false → d.id ∈ named) (s : σ) :
    Rolled named dice (Session.rollUnheld dice s).1 := by
  unfold Session.rollUnheld
  induction dice generalizing s with
  | nil => exact .nil
  | cons d dice ih =>
    refine .cons ?_ (ih (fun d' hd' => h d' (List.mem_cons_of_mem d hd')) _)
    cases hheld : d.held with
    | true => exact ⟨rfl, rfl, rfl, fun _ => rfl⟩
    | false => exact ⟨rfl, rfl, rfl, fun hnot => absurd (h d List.mem_cons_self hheld) hnot⟩

/-! ## Holding -/

/-- To hold a die or to release it changes nothing else about the dice. -/
theorem map_flipHeld {β : Type} {f : Die → β} (h : ∀ d held, f { d with held := held } = f d)
    (id : DieId) (dice : List Die) : (Session.flipHeld id dice).map f = dice.map f := by
  induction dice with
  | nil => rfl
  | cons d dice ih =>
    rw [Session.flipHeld]
    split
    · exact congrArg (· :: dice.map f) (h d _)
    · exact congrArg (f d :: ·) ih

theorem ids_flipHeld (id : DieId) (dice : List Die) :
    ids (Session.flipHeld id dice) = ids dice :=
  map_flipHeld (fun _ _ => rfl) id dice

/-- A die that is held or released shows what it showed. -/
theorem exists_mem_flipHeld (id : DieId) {dice : List Die} {d : Die} (h : d ∈ dice) :
    ∃ d' ∈ Session.flipHeld id dice, d'.id = d.id ∧ d'.value = d.value := by
  induction dice with
  | nil => cases h
  | cons d' dice ih =>
    rw [Session.flipHeld]
    rcases List.mem_cons.mp h with rfl | h
    · split
      · exact ⟨_, List.mem_cons_self, rfl, rfl⟩
      · exact ⟨d, List.mem_cons_self, rfl, rfl⟩
    · split
      · exact ⟨d, List.mem_cons_of_mem _ h, rfl, rfl⟩
      · obtain ⟨d'', hmem, hid, hvalue⟩ := ih h
        exact ⟨d'', List.mem_cons_of_mem _ hmem, hid, hvalue⟩

/-! ## Dice that relics add -/

/-- **The next identity is a new one.** -/
theorem nextDieId_not_mem (dice : List Die) : nextDieId dice ∉ ids dice := by
  intro h
  obtain ⟨d, hd, heq⟩ := List.mem_map.mp h
  have hle : d.id.number + 1 ≤ (dice.map fun d => d.id.number + 1).max?.getD 0 :=
    List.le_max?_getD_of_mem (List.mem_map_of_mem hd)
  rw [heq] at hle
  exact absurd hle (Nat.not_succ_le_self _)

theorem nodup_concat {dice : List Die} (h : (ids dice).Nodup) {d : Die}
    (hd : d.id = nextDieId dice) : (ids (dice ++ [d])).Nodup := by
  rw [ids, List.map_append, List.map_singleton]
  refine List.nodup_append.mpr ⟨h, List.nodup_singleton _, fun id hid id' hid' heq => ?_⟩
  rw [List.mem_singleton.mp hid', hd] at heq
  exact nextDieId_not_mem dice (heq ▸ hid)

theorem nodup_mirrorDie {dice : List Die} (h : (ids dice).Nodup) (s : σ) :
    (ids (Relic.mirrorDie dice s).1).Nodup := by
  rw [Relic.mirrorDie]
  split
  · exact nodup_concat h rfl
  · exact h

theorem nodup_onCombatStart (r : Relic) {deal : Deal} (h : (ids deal.dice).Nodup) (s : σ) :
    (ids (r.onCombatStart deal s).1.dice).Nodup := by
  unfold Relic.onCombatStart
  split
  · exact h
  · exact nodup_mirrorDie h s
  · exact nodup_concat h rfl
  · exact h

theorem nodup_dealAll (relics : List Relic) {deal : Deal} (h : (ids deal.dice).Nodup) (s : σ) :
    (ids (Relics.dealAll relics deal s).1.dice).Nodup :=
  List.foldlRecOn (motive := fun x : Deal × σ => (ids x.1.dice).Nodup) _ _ h
    fun x hx r _ => nodup_onCombatStart r hx x.2

/-- **No two dice of a fresh tray have the same identity.** -/
theorem nodup_dealTray (p : Player) (s : σ) : (ids (p.dealTray s).1.dice).Nodup := by
  rcases hpool : (rollPool p.dicePool s : List Die × σ) with ⟨dice, s'⟩
  have hids : (ids dice).Nodup := by
    rw [show dice = (rollPool p.dicePool s).1 by rw [hpool], ids_rollPool]
    exact List.nodup_range.map fun _ _ h => DieId.mk.inj h
  have hrolled := rolled_onRoll (ids dice) p.relics dice s'
  rw [← hrolled.ids_eq] at hids
  unfold Player.dealTray
  rw [hpool]
  exact nodup_dealAll _ hids _

end Tray

/-! ## Encounters and their trays -/

namespace Session

variable {α : Type} {s s' : Session α}

theorem toggleHold?_eq_some_iff {id : DieId} :
    s.toggleHold? id = some s' ↔ s.isOver = false ∧ (s.die? id).isSome
      ∧ s' = { s with dice := flipHeld id s.dice } := by
  unfold toggleHold?
  cases s.isOver <;> cases (s.die? id).isSome <;> simp [eq_comm]

variable [Scalar α] {p p' : Player}

/-- What starts, starts with a template of the bestiary. -/
theorem exists_of_start {run : Run α} {bestiary : Bestiary} {challenge : Challenge}
    (h : start run bestiary challenge = .ok s) :
    ∃ id template generator, bestiary.template? id = some template
      ∧ challenge.choose bestiary (.forFloor run.progress.seed run.progress.floor : Generator α)
        = .ok (id, generator)
      ∧ s = startWith run template generator := by
  unfold start at h
  dsimp only at h
  split at h
  · cases h
  · split at h
    · cases h
    · next id generator hchoose =>
      split at h
      · cases h
      · next template htemplate =>
        exact ⟨id, template, generator, htemplate, hchoose, (Except.ok.inj h).symm⟩

/-- **A reroll** rolls the dice that are not held and takes their tokens out of the
expression. -/
theorem exists_of_reroll? (h : s.reroll? p = some (s', p')) :
    s.isOver = false ∧ 0 < s.rerollsLeft ∧ p' = p.onReroll
      ∧ ∃ dice generator, Tray.Rolled s.unheld s.dice dice
        ∧ s' = { s with
            dice := dice
            generator := generator
            expression := withoutDice s.unheld s.expression
            rerollsLeft := s.rerollsLeft - 1
            log := s.log ++ ["Rerolled unheld dice!"] } := by
  unfold reroll? at h
  split at h
  · cases h
  · next hfree =>
    rw [Bool.or_eq_true, decide_eq_true_eq, not_or, Bool.not_eq_true] at hfree
    rcases hroll : rollUnheld s.dice s.generator with ⟨dice, g⟩
    rw [hroll] at h
    obtain ⟨rfl, rfl⟩ := Prod.mk.inj (Option.some.inj h)
    have hnamed : ∀ d ∈ s.dice, d.held = false → d.id ∈ s.unheld := fun d hd hheld =>
      List.mem_map.mpr ⟨d, List.mem_filter.mpr ⟨hd, by rw [hheld]; rfl⟩, rfl⟩
    have hrolled := Tray.rolled_rollUnheld hnamed s.generator
    rw [hroll] at hrolled
    exact ⟨hfree.1, Nat.pos_of_ne_zero hfree.2, rfl, _, _,
      hrolled.trans (Tray.rolled_onRoll _ _ _ _), rfl⟩

/-- **The target of a boss** is drawn anew while the encounter goes on, once, and the expression
is emptied. -/
theorem exists_of_rerollBossTarget? {progress : Progress α}
    (h : s.rerollBossTarget? progress = some s') :
    s.isOver = false ∧ s.monster.isBoss = true ∧ s.bossRerollUsed = false ∧ ∃ lines, s' =
      let drawn := s.monster.rerollTarget progress.floor progress.modifiers s.generator
      { s with
        monster := drawn.1
        generator := drawn.2
        bossRerollUsed := true
        expression := []
        log := s.log ++ lines } := by
  unfold rerollBossTarget? at h
  split at h
  · cases h
  · next hfree =>
    simp only [Bool.or_eq_true, not_or, Bool.not_eq_true, Bool.not_eq_false'] at hfree
    exact ⟨hfree.1.1, hfree.1.2, hfree.2, _, (Option.some.inj h).symm⟩

end Session

end Arithmancy
