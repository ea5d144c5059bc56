import Arithmancy.Proofs.Encounter.Edits
import Arithmancy.Proofs.Encounter.Scene
import Arithmancy.Proofs.Encounter.Tray
import Arithmancy.Proofs.Encounter.Turns

/-!
# What a deed makes of a scene

Of the eleven deeds seven do nothing but rewrite the expression or hold a die. The other
four are a reroll, the reroll of a target, a turn, and the acquisition of a relic. This
module says once what each of them makes of a scene (`Scene.Becomes`), field by field where
it is no more than that, so that an invariant of encounters is a matter of five cases.
-/

namespace Arithmancy

variable {α : Type} [Scalar α]

/-- **Whether a deed is an edit**, of the expression or of the dice that are held. -/
def Deed.isEdit : Deed α → Bool
  | .reroll | .rerollBossTarget | .submit | .acquire _ => false
  | _ => true

namespace Scene

/-- **What a deed that is not refused makes of a scene.** -/
inductive Becomes (balance : Balance α) (c : Scene α) : Deed α → Scene α → Prop where
  /-- The expression is rewritten, or a die is held or released. Once the encounter is over,
  the expression can only be emptied. -/
  | edit {d : Deed α} {e : Expression α} {dice : List Die} (hedit : d.isEdit = true)
      (hover : c.session.isOver = false ∨ d = .clearExpression ∧ e = []) :
      Becomes balance c d (c.withSession { c.session with expression := e, dice := dice })
  /-- Dice are rerolled, and the player's relics take part. -/
  | reroll {e : Expression α} {dice : List Die} {generator : Generator α} {rerolls : Nat}
      {lines : List String} (hover : c.session.isOver = false) :
      Becomes balance c .reroll ((c.withSession { c.session with
        expression := e
        dice := dice
        generator := generator
        rerollsLeft := rerolls
        log := c.session.log ++ lines }).withPlayer c.player.onReroll)
  /-- The target of a boss is drawn anew. -/
  | target {lines : List String} (hover : c.session.isOver = false) :
      Becomes balance c .rerollBossTarget (c.withSession
        (let drawn := c.session.monster.rerollTarget c.run.progress.floor
          c.run.progress.modifiers c.session.generator
        { c.session with
          monster := drawn.1
          generator := drawn.2
          bossRerollUsed := true
          expression := []
          log := c.session.log ++ lines }))
  /-- A turn is resolved. -/
  | turn {raw : α} (haccept : c.session.accept = .ok raw) :
      Becomes balance c .submit ⟨(c.session.resolve c.run balance raw).session,
        (c.session.resolve c.run balance raw).run⟩
  /-- A relic is acquired. -/
  | acquire {r : Relic} {p : Player} (hp : c.player.addRelic r = .ok p) :
      Becomes balance c (.acquire r) (c.withPlayer p)

variable {balance : Balance α} {c c' : Scene α} {d : Deed α}

/-- **Every deed** that is not refused makes of the scene what `Becomes` says. -/
theorem becomes_of_perform? (hd : c.perform? balance d = some c') : c.Becomes balance d c' := by
  cases d with
  | placeDie id =>
    obtain ⟨s, hs, rfl⟩ := toOption_map_eq_some_iff.mp hd
    obtain ⟨_, _, -, -, htoken⟩ := Session.placeDie_eq_ok_iff.mp hs
    obtain ⟨hover, -, -, rfl⟩ := Session.placeToken_eq_ok_iff.mp htoken
    exact .edit rfl (.inl hover)
  | placeOperator slot =>
    obtain ⟨s, hs, rfl⟩ := toOption_map_eq_some_iff.mp hd
    obtain ⟨_, -, htoken⟩ := Session.placeOperator_eq_ok_iff.mp hs
    obtain ⟨hover, -, -, rfl⟩ := Session.placeToken_eq_ok_iff.mp htoken
    exact .edit rfl (.inl hover)
  | placeToken t place =>
    obtain ⟨s, hs, rfl⟩ := toOption_map_eq_some_iff.mp hd
    obtain ⟨hover, -, -, rfl⟩ := Session.placeToken_eq_ok_iff.mp hs
    exact .edit rfl (.inl hover)
  | removeToken i =>
    obtain ⟨⟨t, s⟩, hs, rfl⟩ := toOption_map_eq_some_iff.mp hd
    obtain ⟨hover, -, rfl⟩ := Session.removeToken_eq_ok_iff.mp hs
    exact .edit rfl (.inl hover)
  | moveToken i j =>
    obtain ⟨s, hs, rfl⟩ := toOption_map_eq_some_iff.mp hd
    obtain ⟨hover, -, -, rfl⟩ := Session.moveToken_eq_ok_iff.mp hs
    exact .edit rfl (.inl hover)
  | clearExpression =>
    obtain rfl := Option.some.inj hd
    exact .edit rfl (.inr ⟨rfl, rfl⟩)
  | toggleHold id =>
    obtain ⟨s, hs, rfl⟩ := Option.map_eq_some_iff.mp hd
    obtain ⟨hover, -, rfl⟩ := Session.toggleHold?_eq_some_iff.mp hs
    exact .edit rfl (.inl hover)
  | reroll =>
    obtain ⟨⟨s, p⟩, hs, rfl⟩ := Option.map_eq_some_iff.mp hd
    obtain ⟨hover, -, rfl, _, _, -, rfl⟩ := Session.exists_of_reroll? hs
    exact .reroll hover
  | rerollBossTarget =>
    obtain ⟨s, hs, rfl⟩ := Option.map_eq_some_iff.mp hd
    obtain ⟨hover, -, -, _, rfl⟩ := Session.exists_of_rerollBossTarget? hs
    exact .target hover
  | submit =>
    obtain ⟨t, ht, rfl⟩ := toOption_map_eq_some_iff.mp hd
    obtain ⟨raw, haccept, rfl⟩ := Session.submit_eq_ok_iff.mp ht
    exact .turn haccept
  | acquire r =>
    obtain ⟨p, hp, rfl⟩ := toOption_map_eq_some_iff.mp hd
    exact .acquire hp

/-- **An edit that holds no die and releases none** rewrites the expression and does nothing
else. -/
theorem exists_expression_of_perform? (hd : c.perform? balance d = some c')
    (hedit : d.isEdit = true) (hhold : ∀ id, d ≠ .toggleHold id) :
    ∃ e, c' = c.withSession (c.session.withExpression e) := by
  cases d with
  | placeDie id =>
    obtain ⟨s, hs, rfl⟩ := toOption_map_eq_some_iff.mp hd
    obtain ⟨_, _, -, -, htoken⟩ := Session.placeDie_eq_ok_iff.mp hs
    obtain ⟨-, -, -, rfl⟩ := Session.placeToken_eq_ok_iff.mp htoken
    exact ⟨_, rfl⟩
  | placeOperator slot =>
    obtain ⟨s, hs, rfl⟩ := toOption_map_eq_some_iff.mp hd
    obtain ⟨_, -, htoken⟩ := Session.placeOperator_eq_ok_iff.mp hs
    obtain ⟨-, -, -, rfl⟩ := Session.placeToken_eq_ok_iff.mp htoken
    exact ⟨_, rfl⟩
  | placeToken t place =>
    obtain ⟨s, hs, rfl⟩ := toOption_map_eq_some_iff.mp hd
    obtain ⟨-, -, -, rfl⟩ := Session.placeToken_eq_ok_iff.mp hs
    exact ⟨_, rfl⟩
  | removeToken i =>
    obtain ⟨⟨t, s⟩, hs, rfl⟩ := toOption_map_eq_some_iff.mp hd
    obtain ⟨-, -, rfl⟩ := Session.removeToken_eq_ok_iff.mp hs
    exact ⟨_, rfl⟩
  | moveToken i j =>
    obtain ⟨s, hs, rfl⟩ := toOption_map_eq_some_iff.mp hd
    obtain ⟨-, -, -, rfl⟩ := Session.moveToken_eq_ok_iff.mp hs
    exact ⟨_, rfl⟩
  | clearExpression => exact ⟨_, (Option.some.inj hd).symm⟩
  | toggleHold id => exact absurd rfl (hhold id)
  | reroll | rerollBossTarget | submit | acquire _ => cases hedit

/-- **Nothing that was told is taken back**: a deed leaves the log, or adds to its end. -/
theorem Becomes.keeps_log (hd : c.Becomes balance d c') : c.session.log <+: c'.session.log := by
  cases hd with
  | edit _ _ => exact List.prefix_rfl
  | reroll _ => exact List.prefix_append _ _
  | target _ => exact List.prefix_append _ _
  | turn _ => exact (c.session.settles_resolve c.run balance _).log
  | acquire _ => exact List.prefix_rfl

end Scene

end Arithmancy
