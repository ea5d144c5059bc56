import Arithmancy.Number.Exact
import Arithmancy.Proofs.Encounter.Edits
import Arithmancy.Proofs.Encounter.Scene
import Arithmancy.Proofs.Encounter.Tray
import Arithmancy.Proofs.Encounter.Turns
import Arithmancy.Proofs.Player
import Arithmancy.Proofs.Relic.Passes

/-!
# The expression uses what the player has

A number stands in the expression because a die shows it, and an operator because a card
is in the hand. This module says so of every scene that can be reached
(`Session.Placed`): each number names a die on the tray that shows it, no die is named
twice, each operator names a slot of the hand that holds it, and no slot is named more
often than its card may be used.

The checks on a token that is placed are one half of the reason. The other half is that
dice change: what a reroll may change, it takes out of the expression, and what it does
not take out, it does not change (`Tray.Rolled`).
-/

namespace Arithmancy

/-- How often the card in a slot may be used. -/
def Player.cardLimit (p : Player) : Nat := if p.hasRelic .recycler then 2 else 1

/-! ## The invariant -/

namespace Session

variable {α : Type} [Scalar α]

/-- **The expression uses what is on the tray and in the hand**, and nothing too often. -/
structure Placed (s : Session α) (p : Player) : Prop where
  /-- No two dice have the same identity. -/
  nodup_ids : (Tray.ids s.dice).Nodup
  /-- Every number names a die on the tray that shows it. -/
  shown : ∀ value die, .number value die ∈ s.expression →
    ∃ d ∈ s.dice, die = some d.id ∧ ∃ n, d.value = some n ∧ ((Scalar.ofNat n : α) == value) = true
  /-- No die is named by two tokens. -/
  nodup_placed : (s.expression.filterMap Token.die?).Nodup
  /-- Every operator names a slot of the hand that holds it. -/
  held : ∀ card, .operator card ∈ s.expression →
    ∃ slot, card.slot = some slot ∧ p.hand[slot]? = some card.op
  /-- No slot is named more often than its card may be used. -/
  cardUses_le : ∀ slot, s.cardUses slot ≤ p.cardLimit

variable {s s' : Session α} {p p' : Player}

/-- An empty expression uses nothing. -/
theorem placed_of_expression_eq_nil (h : (Tray.ids s.dice).Nodup) (he : s.expression = []) :
    s.Placed p where
  nodup_ids := h
  shown := by simp [he]
  nodup_placed := by simp [he]
  held := by simp [he]
  cardUses_le := by simp [cardUses, he]

namespace Placed

/-- What is removed is not missed. -/
theorem sublist (h : s.Placed p) {e : Expression α} (he : e.Sublist s.expression) :
    (s.withExpression e).Placed p where
  nodup_ids := h.nodup_ids
  shown value die hmem := h.shown value die (he.subset hmem)
  nodup_placed := h.nodup_placed.sublist (he.filterMap _)
  held card hmem := h.held card (he.subset hmem)
  cardUses_le slot := Nat.le_trans (he.countP_le) (h.cardUses_le slot)

/-- The order of the tokens does not matter. -/
theorem perm (h : s.Placed p) {e : Expression α} (he : e.Perm s.expression) :
    (s.withExpression e).Placed p where
  nodup_ids := h.nodup_ids
  shown value die hmem := h.shown value die (he.mem_iff.mp hmem)
  nodup_placed := (he.filterMap _).nodup_iff.mpr h.nodup_placed
  held card hmem := h.held card (he.mem_iff.mp hmem)
  cardUses_le slot := by
    rw [cardUses, expression_withExpression, he.countP_eq]
    exact h.cardUses_le slot

/-- **A token that passes its check** may stand first. -/
theorem cons (h : s.Placed p) {t : Token α} (ht : s.checkToken p t = .ok ()) :
    (s.withExpression (t :: s.expression)).Placed p := by
  cases t with
  | number value die =>
    obtain ⟨id, d, shown, rfl, hdie, hvalue, hshown, hplaced⟩ := checkNumber_eq_ok_iff.mp ht
    obtain ⟨hid, hmem⟩ : d.id = id ∧ d ∈ s.dice :=
      ⟨by simpa using List.find?_some hdie, List.mem_of_find?_eq_some hdie⟩
    refine ⟨h.nodup_ids, fun v die hv => ?_, ?_, fun card hcard => ?_, h.cardUses_le⟩
    · rcases List.mem_cons.mp hv with heq | hv
      · cases heq
        exact ⟨d, hmem, congrArg some hid.symm, shown, hvalue, hshown⟩
      · exact h.shown v die hv
    · refine List.nodup_cons.mpr ⟨fun hnot => ?_, h.nodup_placed⟩
      obtain ⟨t, ht, hid⟩ := List.mem_filterMap.mp hnot
      have hany : s.isPlaced id = true :=
        List.any_eq_true.mpr ⟨t, ht, by rw [hid]; exact beq_self_eq_true _⟩
      rw [hplaced] at hany
      cases hany
    · rcases List.mem_cons.mp hcard with heq | hcard
      · cases heq
      · exact h.held card hcard
  | operator card =>
    obtain ⟨slot, hslot, hheld, huses⟩ := checkCard_eq_ok_iff.mp ht
    refine ⟨h.nodup_ids, fun v die hv => ?_, h.nodup_placed, fun c hc => ?_, fun slot' => ?_⟩
    · rcases List.mem_cons.mp hv with heq | hv
      · cases heq
      · exact h.shown v die hv
    · rcases List.mem_cons.mp hc with heq | hc
      · cases heq
        exact ⟨slot, hslot, hheld⟩
      · exact h.held c hc
    · rw [cardUses, expression_withExpression, List.countP_cons]
      by_cases heq : slot = slot'
      · rw [if_pos (by simp [Token.slot?, hslot, heq]), ← heq]
        exact Nat.lt_of_lt_of_eq huses (Relics.cardUses_eq p.relics)
      · rw [if_neg (by simp [Token.slot?, hslot, heq])]
        exact h.cardUses_le slot'

/-- A token that passes its check may stand anywhere. -/
theorem insertIdx (h : s.Placed p) {t : Token α} (ht : s.checkToken p t = .ok ()) {i : Nat}
    (hi : i ≤ s.expression.length) :
    (s.withExpression (s.expression.insertIdx i t)).Placed p :=
  (h.cons ht).perm (List.perm_insertIdx t s.expression hi)

/-- A player with the same hand, who may use cards as often, is as good. -/
theorem of_player (h : s.Placed p) (hhand : p'.hand = p.hand)
    (hlimit : p.cardLimit ≤ p'.cardLimit) : s.Placed p' where
  nodup_ids := h.nodup_ids
  shown := h.shown
  nodup_placed := h.nodup_placed
  held card hmem := by rw [hhand]; exact h.held card hmem
  cardUses_le slot := Nat.le_trans (h.cardUses_le slot) hlimit

/-! ## What every deed keeps -/

theorem placeToken (h : s.Placed p) {t : Token α} {place : Option Nat}
    (ht : s.placeToken p t place = .ok s') : s'.Placed p := by
  obtain ⟨-, hcheck, hplace, rfl⟩ := placeToken_eq_ok_iff.mp ht
  exact h.insertIdx hcheck hplace

theorem placeDie (h : s.Placed p) {id : DieId} (ht : s.placeDie p id = .ok s') : s'.Placed p := by
  obtain ⟨d, shown, -, -, htoken⟩ := placeDie_eq_ok_iff.mp ht
  exact h.placeToken htoken

theorem placeOperator (h : s.Placed p) {slot : Nat} (ht : s.placeOperator p slot = .ok s') :
    s'.Placed p := by
  obtain ⟨op, -, htoken⟩ := placeOperator_eq_ok_iff.mp ht
  exact h.placeToken htoken

theorem removeToken (h : s.Placed p) {i : Nat} {t : Token α}
    (ht : s.removeToken i = .ok (t, s')) : s'.Placed p := by
  obtain ⟨-, -, rfl⟩ := removeToken_eq_ok_iff.mp ht
  exact h.sublist (List.eraseIdx_sublist _ _)

theorem moveToken (h : s.Placed p) {i j : Nat} (ht : s.moveToken i j = .ok s') : s'.Placed p := by
  obtain ⟨-, hi, hj, rfl⟩ := moveToken_eq_ok_iff.mp ht
  exact h.perm (moveBefore_perm _ hi hj)

/-- The tray with a die held or released shows what it showed. -/
theorem toggleHold (h : s.Placed p) {id : DieId} (ht : s.toggleHold? id = some s') :
    s'.Placed p := by
  obtain ⟨-, -, rfl⟩ := toggleHold?_eq_some_iff.mp ht
  refine ⟨(Tray.ids_flipHeld id s.dice).symm ▸ h.nodup_ids, fun value die hmem => ?_,
    h.nodup_placed, h.held, h.cardUses_le⟩
  obtain ⟨d, hd, rfl, n, hvalue, hshown⟩ := h.shown value die hmem
  obtain ⟨d', hd', hid, hvalue'⟩ := Tray.exists_mem_flipHeld id hd
  exact ⟨d', hd', congrArg some hid.symm, n, hvalue'.trans hvalue, hshown⟩

/-- **A reroll** leaves the dice alone that are still named. -/
theorem reroll (h : s.Placed p) (ht : s.reroll? p = some (s', p')) : s'.Placed p' := by
  obtain ⟨-, -, rfl, dice, generator, hrolled, rfl⟩ := exists_of_reroll? ht
  have hfilter := h.sublist (e := withoutDice s.unheld s.expression) List.filter_sublist
  have hlimit : p.cardLimit = p.onReroll.cardLimit := by
    rw [Player.cardLimit, Player.cardLimit, Player.hasRelic, Player.hasRelic, p.relics_onReroll]
  have hplayer := hfilter.of_player p.hand_onReroll (Nat.le_of_eq hlimit)
  refine ⟨hrolled.ids_eq.symm ▸ h.nodup_ids, fun value die hmem => ?_, hplayer.nodup_placed,
    hplayer.held, hplayer.cardUses_le⟩
  obtain ⟨d, hd, rfl, hshown⟩ := hplayer.shown value die hmem
  -- a die that is still named is not among those that were rolled
  have hnot : d.id ∉ s.unheld := by simpa [Token.die?] using (List.mem_filter.mp hmem).2
  exact ⟨d, hrolled.mem_of_not_mem hd hnot, rfl, hshown⟩

theorem rerollBossTarget (h : s.Placed p) {progress : Progress α}
    (ht : s.rerollBossTarget? progress = some s') : s'.Placed p := by
  unfold rerollBossTarget? at ht
  split at ht
  · cases ht
  · obtain rfl := Option.some.inj ht
    exact placed_of_expression_eq_nil h.nodup_ids rfl

/-- **A turn** empties the expression, and ends with the tray it began with or with a
fresh one. -/
theorem submit (h : s.Placed p) {run : Run α} {balance : Balance α} {t : TurnResult α}
    (ht : s.submit run balance = .ok t) : t.session.Placed t.run.player := by
  obtain ⟨raw, -, rfl⟩ := submit_eq_ok_iff.mp ht
  refine placed_of_expression_eq_nil ?_ (s.settles_resolve run balance raw).expression
  rcases s.tray_resolve run balance raw with ⟨-, hdice⟩ | ⟨s', hfresh⟩
  · rw [hdice]
    exact h.nodup_ids
  · rw [hfresh]
    exact Tray.nodup_dealTray _ _

theorem acquire (h : s.Placed p) {r : Relic} (hr : p.addRelic r = .ok p') : s.Placed p' := by
  obtain ⟨-, hhand, hrelics⟩ := Player.of_addRelic hr
  refine h.of_player hhand ?_
  unfold Player.cardLimit Player.hasRelic
  by_cases hmem : Relic.recycler ∈ p.relics
  · refine Nat.le_of_eq ?_
    rw [hrelics, if_pos (List.contains_iff_mem.mpr hmem),
      if_pos (List.contains_iff_mem.mpr (List.mem_append_left _ hmem))]
  · rw [if_neg fun hc => hmem (List.contains_iff_mem.mp hc)]
    split <;> decide

end Placed

/-- An encounter starts with an empty expression. -/
theorem placed_of_start {run : Run α} {bestiary : Bestiary} {challenge : Challenge}
    (h : start run bestiary challenge = .ok s) : s.Placed run.player := by
  obtain ⟨id, template, generator, -, -, rfl⟩ := exists_of_start h
  exact placed_of_expression_eq_nil (Tray.nodup_dealTray _ _) rfl

end Session

/-! ## Whole encounters -/

namespace Scene

variable {α : Type} [Scalar α]

/-- **No deed breaks the link** between the expression and what the player has. -/
theorem placed_of_perform? {balance : Balance α} {c c' : Scene α} {d : Deed α}
    (h : c.session.Placed c.player) (hd : c.perform? balance d = some c') :
    c'.session.Placed c'.player := by
  cases d with
  | placeDie id =>
    obtain ⟨s, hs, rfl⟩ := toOption_map_eq_some_iff.mp hd
    exact h.placeDie hs
  | placeOperator slot =>
    obtain ⟨s, hs, rfl⟩ := toOption_map_eq_some_iff.mp hd
    exact h.placeOperator hs
  | placeToken t place =>
    obtain ⟨s, hs, rfl⟩ := toOption_map_eq_some_iff.mp hd
    exact h.placeToken hs
  | removeToken i =>
    obtain ⟨⟨t, s⟩, hs, rfl⟩ := toOption_map_eq_some_iff.mp hd
    exact h.removeToken hs
  | moveToken i j =>
    obtain ⟨s, hs, rfl⟩ := toOption_map_eq_some_iff.mp hd
    exact h.moveToken hs
  | clearExpression =>
    obtain rfl := Option.some.inj hd
    exact Session.placed_of_expression_eq_nil h.nodup_ids rfl
  | toggleHold id =>
    obtain ⟨s, hs, rfl⟩ := Option.map_eq_some_iff.mp hd
    exact h.toggleHold hs
  | reroll =>
    obtain ⟨⟨s, p⟩, hs, rfl⟩ := Option.map_eq_some_iff.mp hd
    exact h.reroll hs
  | rerollBossTarget =>
    obtain ⟨s, hs, rfl⟩ := Option.map_eq_some_iff.mp hd
    exact h.rerollBossTarget hs
  | submit =>
    obtain ⟨t, ht, rfl⟩ := toOption_map_eq_some_iff.mp hd
    exact h.submit ht
  | acquire r =>
    obtain ⟨p, hp, rfl⟩ := toOption_map_eq_some_iff.mp hd
    exact h.acquire hp

/-- **Whatever is done in an encounter**, the expression uses what the player has, and
nothing more often than allowed. -/
theorem placed_after {run : Run α} {bestiary : Bestiary} {challenge : Challenge} {s : Session α}
    (h : Session.start run bestiary challenge = .ok s) (balance : Balance α)
    (deeds : List (Deed α)) :
    ((⟨s, run⟩ : Scene α).after balance deeds).session.Placed
      ((⟨s, run⟩ : Scene α).after balance deeds).player :=
  after_induction (P := fun c => c.session.Placed c.player)
    (fun _ _ _ hc hd => placed_of_perform? hc hd) (Session.placed_of_start h) deeds

/-- A run with two dice and one card. -/
def shortRun : Run Rat where
  player := .fresh 80 50 1 [.ofType .d6, .ofType .d6] [.add]
  progress := .start 1 (.forLevel 0 .standard)

/-- The only monster of a small bestiary. -/
def loneRat : Template := Bestiary.regular "rat" "Sewer Rat" (6, 12) .d6 1 1

/-- A die is placed and held through a reroll, a card and the other die follow: three tokens are
placed. Then the turn is resolved with a relic that was acquired on the way. -/
theorem placed_after_duel :
    let s := Session.startWith shortRun loneRat (.forFloor 1 0)
    let start : Scene Rat := ⟨s, shortRun⟩
    let sum := [.placeDie ⟨0⟩, .toggleHold ⟨0⟩, .reroll, .placeOperator 0, .placeDie ⟨1⟩]
    let built := start.after .standard sum
    let resolved := start.after .standard (sum ++ [.acquire .recycler, .submit])
    Session.start shortRun (.ofTemplates [loneRat]) (.monster "rat") = .ok s
      ∧ built.session.expression.map Token.die? = [some ⟨0⟩, none, some ⟨1⟩]
      ∧ built.session.expression.map Token.slot? = [none, some 0, none]
      ∧ built.session.Placed built.player
      ∧ resolved.session.expression = [] ∧ resolved.session.Placed resolved.player :=
  have h : Session.start shortRun (.ofTemplates [loneRat]) (.monster "rat")
      = .ok (Session.startWith shortRun loneRat (.forFloor 1 0)) := rfl
  ⟨h, by decide +kernel, by decide +kernel, placed_after h _ _, by decide +kernel,
    placed_after h _ _⟩

end Scene

end Arithmancy
