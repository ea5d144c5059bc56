import Arithmancy.Proofs.Game.RandomStream

/-!
# What a reroll touches

A reroll decides three times which dice it is about: the dice that are not held are rolled, the
relics adjust the dice whose identities were noted before, and the tokens that name one of these
identities leave the expression. The three agree because no two dice have the same identity. So
what was held is left alone, and so are its tokens and all operators.

The main statement, `Game.reroll_touches_only_unheld`, says what of the whole game is changed by
a reroll (`Session.Rerolled`), and that the player gains no more by it than a hit point.
-/

namespace Arithmancy

/-- **A die after a reroll**: it keeps its identity, its kind and whether it is held, and if it
is held, it is left as it is. -/
structure Die.Rerolled (d d' : Die) : Prop where
  /-- The identity stays. -/
  id_eq : d'.id = d.id
  /-- The kind of die stays. -/
  spec_eq : d'.spec = d.spec
  /-- Whether it is held stays. -/
  held_eq : d'.held = d.held
  /-- A die that is held is left alone. -/
  eq_of_held : d.held = true → d' = d

/-- **A token names a free die** if it names a die of the tray that is not held. -/
def Token.NamesFree {α : Type} (dice : List Die) (t : Token α) : Prop :=
  ∃ d ∈ dice, t.die? = some d.id ∧ d.held = false

instance {α : Type} (dice : List Die) (t : Token α) : Decidable (t.NamesFree dice) :=
  inferInstanceAs (Decidable (∃ d ∈ dice, t.die? = some d.id ∧ d.held = false))

/-- **A token is kept in a reroll** if it is an operator or names a die that is held. -/
def Token.Kept {α : Type} (dice : List Die) (t : Token α) : Prop :=
  (∃ card, t = .operator card) ∨ ∃ d ∈ dice, t.die? = some d.id ∧ d.held = true

namespace Session

variable {α : Type}

/-- **An encounter after a reroll.** -/
structure Rerolled (s s' : Session α) : Prop where
  /-- The tray keeps its order, and all dice on it that are held. -/
  dice : List.Forall₂ Die.Rerolled s.dice s'.dice
  /-- The tokens of free dice leave the expression, and all others stay in their order. -/
  expression : s'.expression = s.expression.filter fun t => !decide (t.NamesFree s.dice)
  /-- What stays are the operators and the tokens of dice that are held. -/
  kept : ∀ t, t ∈ s'.expression ↔ t ∈ s.expression ∧ t.Kept s.dice
  /-- A reroll is spent. -/
  spent : s'.rerollsLeft + 1 = s.rerollsLeft
  /-- One line is told. -/
  told : s'.log = s.log ++ ["Rerolled unheld dice!"]
  /-- Apart from that, only the generator is another. -/
  rest : s' = { s with
    dice := s'.dice
    expression := s'.expression
    rerollsLeft := s'.rerollsLeft
    log := s'.log
    generator := s'.generator }

section

variable {s : Session α}

theorem mem_unheld_iff {id : DieId} :
    id ∈ s.unheld ↔ ∃ d ∈ s.dice, d.id = id ∧ d.held = false := by
  rw [unheld, List.mem_map]
  refine exists_congr fun d => ?_
  rw [List.mem_filter, Bool.not_eq_true', and_assoc, and_comm (a := d.id = id)]

/-- The tokens that a reroll takes out of the expression are those that name a free die. -/
theorem withoutDice_unheld (e : Expression α) :
    withoutDice s.unheld e = e.filter fun t => !decide (t.NamesFree s.dice) := by
  refine List.filter_congr fun t _ => ?_
  rw [Bool.eq_iff_iff, Bool.not_eq_true', decide_eq_false_iff_not, Option.all_eq_true]
  simp only [Bool.not_eq_true', List.contains_eq_mem, decide_eq_false_iff_not, mem_unheld_iff]
  constructor
  · rintro hnot ⟨d, hd, hdie, hfree⟩
    exact hnot d.id hdie ⟨d, hd, rfl, hfree⟩
  · rintro hnot id hdie ⟨d, hd, rfl, hfree⟩
    exact hnot ⟨d, hd, hdie, hfree⟩

/-- **In an expression that uses what is there**, every token is kept in a reroll or names a
free die, and none does both. -/
theorem not_namesFree_iff [Scalar α] {p : Player} (h : s.Placed p) {t : Token α}
    (ht : t ∈ s.expression) : ¬t.NamesFree s.dice ↔ t.Kept s.dice := by
  cases t with
  | operator card => exact iff_of_true (fun ⟨_, _, hdie, _⟩ => nomatch hdie) (.inl ⟨card, rfl⟩)
  | number value die =>
    obtain ⟨d, hd, rfl, -⟩ := h.shown value die ht
    have hsame {d' : Die} (hd' : d' ∈ s.dice)
        (hdie : (Token.number value (some d.id) : Token α).die? = some d'.id) : d' = d :=
      (List.inj_on_of_nodup_map h.nodup_ids hd hd' (Option.some.inj hdie)).symm
    constructor
    · intro hnot
      refine .inr ⟨d, hd, rfl, ?_⟩
      rw [← Bool.not_eq_false]
      exact fun hfree => hnot ⟨d, hd, rfl, hfree⟩
    · rintro (⟨card, hcard⟩ | ⟨d₁, hd₁, hdie₁, hheld⟩) ⟨d₂, hd₂, hdie₂, hfree⟩
      · cases hcard
      · rw [hsame hd₁ hdie₁] at hheld
        rw [hsame hd₂ hdie₂, hheld] at hfree
        cases hfree

end

/-- **A reroll** leaves all that is held alone, if the expression uses what is there. -/
theorem rerolled_of_reroll? [Scalar α] {s s' : Session α} {p p' : Player} (h : s.Placed p)
    (hr : s.reroll? p = some (s', p')) : s.Rerolled s' := by
  obtain ⟨-, hleft, -, dice, generator, hrolled, rfl⟩ := exists_of_reroll? hr
  have hfree := contains_unheld h.nodup_ids
  refine ⟨?_, withoutDice_unheld s.expression, fun t => ?_, Nat.sub_add_cancel hleft, rfl, rfl⟩
  · refine List.forall₂_iff_zip.mpr ⟨hrolled.length_eq, fun {d d'} hmem => ?_⟩
    have hdie := (List.forall₂_iff_zip.mp hrolled).2 hmem
    refine ⟨hdie.id_eq, hdie.spec_eq, hdie.held_eq, fun hheld => ?_⟩
    refine hdie.eq_of_not_mem fun hnamed => ?_
    have hcontains := hfree d (List.of_mem_zip hmem).1
    rw [List.contains_iff_mem.mpr hnamed, hheld] at hcontains
    cases hcontains
  · show t ∈ withoutDice s.unheld s.expression ↔ _
    rw [withoutDice_unheld, List.mem_filter, Bool.not_eq_true', decide_eq_false_iff_not]
    exact and_congr_right (not_namesFree_iff h)

end Session

/-- **A player after a reroll** has at most one hit point more, within the limit, and that only
with the relic that heals on rerolls. Nothing else of the player is changed. -/
structure Player.Refreshed (p p' : Player) : Prop where
  /-- No more than one hit point is gained, and none is lost. -/
  gains : p.hp ≤ p'.hp ∧ p'.hp ≤ p.hp + 1
  /-- Hit points stay within their limit. -/
  within : p'.hp ≤ p.maxHp
  /-- Nothing is gained without the relic. -/
  idle : .secondWind ∉ p.relics → p'.hp = p.hp
  /-- Nothing else changes. -/
  rest : p' = { p with hp := p'.hp }

/-- **A reroll refreshes the player** whose hit points are within their limit and who owns no
relic twice. -/
theorem Player.refreshed_onReroll {p : Player} (hwithin : p.hp ≤ p.maxHp)
    (hrelics : p.relics.Nodup) : p.Refreshed p.onReroll := by
  rw [onReroll_eq]
  split
  · next hmem =>
    rw [List.count_eq_one_of_mem hrelics hmem]
    refine ⟨⟨?_, ?_⟩, Nat.min_le_right _ _, fun hnot => absurd hmem hnot, rfl⟩
    · exact Nat.le_min.mpr ⟨Nat.le_add_right _ _, hwithin⟩
    · exact Nat.min_le_left _ _
  · exact ⟨⟨Nat.le_refl _, Nat.le_succ _⟩, hwithin, fun _ => rfl, rfl⟩

namespace Game

variable {α : Type} [Scalar α] {g : Game α}

/-- **A reroll touches only what is not held**, whatever was played before it and whichever
relics the player owns: dice, tokens and everything else of the encounter that a reroll is not
about are left as they are, the player gains no more than one hit point, and the rest of the
game is the same. -/
theorem reroll_touches_only_unheld (h : g.Begins) (moves : List (Move α))
    (hdone : (g.after moves).reroll.answer = .ok true) :
    ∃ s s' p, (g.after moves).session = some s ∧ s.Rerolled s'
      ∧ (g.after moves).run.player.Refreshed p
      ∧ (g.after moves).reroll.game = { g.after moves with
          session := some s'
          run := { (g.after moves).run with player := p } } := by
  have hequipped := h.equipped_after moves
  obtain ⟨s, s', p, hs, hreroll, hgame⟩ := game_of_reroll_answer hdone
  obtain ⟨-, -, hp, -⟩ := Session.exists_of_reroll? hreroll
  refine ⟨s, s', p, hs, Session.rerolled_of_reroll? (hequipped.placed s hs) hreroll, ?_, hgame⟩
  rw [hp]
  exact Player.refreshed_onReroll (h.vital_after moves).within hequipped.relics

/-- The moves of a player who places two dice of a tray with a copy on it, and holds the first
of them. -/
def heldSum : List (Move Rat) :=
  [.grantRelic .mirrorShard, .grantRelic .luckyDice, .grantRelic .secondWind,
    .startCombat (.monster "rat"), .placeDie ⟨0⟩, .placeOperator 0, .placeDie ⟨1⟩,
    .toggleHold ⟨0⟩]

/-- Of the sum of two dice, the die that is held stays, and so does the operator. -/
theorem reroll_touches_only_unheld_sum :
    ∃ g s s' p, Game.new .standard .builtIn = .ok g
      ∧ (g.after heldSum).reroll.answer = .ok true
      ∧ (g.after heldSum).session = some s ∧ s.Rerolled s'
      ∧ (g.after heldSum).run.player.Refreshed p
      ∧ (g.after heldSum).reroll.game = { g.after heldSum with
          session := some s'
          run := { (g.after heldSum).run with player := p } }
      ∧ s'.expression.length = 2 := by
  obtain ⟨g, hnew, hdone, hlength⟩ : ∃ g, Game.new .standard .builtIn = .ok g
      ∧ (g.after heldSum).reroll.answer = .ok true
      ∧ (g.after heldSum).reroll.game.session.map (·.expression.length) = some 2 :=
    ⟨_, rfl, by decide +kernel⟩
  obtain ⟨s, s', p, hs, hrerolled, hrefreshed, hgame⟩ :=
    reroll_touches_only_unheld (begins_of_new hnew) heldSum hdone
  rw [hgame] at hlength
  exact ⟨g, s, s', p, hnew, hdone, hs, hrerolled, hrefreshed, hgame, Option.some.inj hlength⟩

end Game

end Arithmancy
