import Arithmancy.Proofs.Encounter.Deeds
import Arithmancy.Proofs.Player.Belongings
import Arithmancy.Proofs.Player.Health

/-!
# Life and death in an encounter

A turn settles who is dead before it is over: a strike that no relic answers kills the
player, and the report of the turn says so; only then gold is earned, and the relics take
part in the end of the encounter. So a player who is reported dead can leave the encounter
alive, namely if the monster died as well and a relic heals after victories
(`Session.hp_resolve_pos_iff`).

While an encounter goes on its player lives, and hit points never exceed their limit. Such
a scene is **vital**, and no deed makes it anything else (`Scene.vital_of_perform?`).
-/

namespace Arithmancy

variable {α : Type} [Scalar α]

/-! ## The player in a turn -/

theorem Phase.isOver_after {monsterDead playerDead : Bool} :
    (Phase.after monsterDead playerDead).isOver = (monsterDead || playerDead) := by
  cases monsterDead <;> cases playerDead <;> rfl

theorem Phase.after_eq_victory_iff {monsterDead playerDead : Bool} :
    Phase.after monsterDead playerDead = .victory ↔ monsterDead = true := by
  cases monsterDead <;> cases playerDead <;> decide

omit [Scalar α] in
theorem Session.isOver_eq_false_iff {s : Session α} : s.isOver = false ↔ s.phase = .building := by
  rw [isOver]
  cases s.phase <;> decide

namespace Session

/-- **The player after the strike of a turn**, before anything is earned. -/
def survivorOf (s : Session α) (run : Run α) (balance : Balance α) (raw : α) : Player :=
  ((run.player.affected (s.judgementOf run balance raw).appraisal.effects).suffer
    run.player.relics (s.retaliationOf run balance raw).damage).1

variable (s : Session α) (run : Run α) (balance : Balance α) (raw : α)

/-- Whether the player is dead is settled by the strike. -/
theorem playerDead_resolve :
    (s.resolve run balance raw).resolution.playerDead
      = !(s.survivorOf run balance raw).isAlive := rfl

/-- The hit points that are reported are those at the end of the turn. -/
theorem playerHp_resolve :
    (s.resolve run balance raw).resolution.playerHp
      = (s.resolve run balance raw).run.player.hp := rfl

theorem phase_resolve :
    (s.resolve run balance raw).resolution.phase
      = .after (s.resolve run balance raw).resolution.monsterDead
        (s.resolve run balance raw).resolution.playerDead := rfl

/-- **An encounter is won** by the turn in which the monster is reported dead. -/
theorem victory_resolve_iff {s : Session α} {run : Run α} {balance : Balance α} {raw : α} :
    (s.resolve run balance raw).session.phase = .victory
      ↔ (s.resolve run balance raw).resolution.monsterDead = true := by
  rw [(s.settles_resolve run balance raw).phase, phase_resolve]
  exact Phase.after_eq_victory_iff

theorem isOver_resolve :
    (s.resolve run balance raw).session.isOver
      = ((s.resolve run balance raw).resolution.monsterDead
        || (s.resolve run balance raw).resolution.playerDead) := by
  obtain ⟨lines, hsession⟩ := s.session_resolve run balance raw
  rw [hsession, ← Phase.isOver_after, ← phase_resolve]
  dsimp only
  split <;> rfl

/-- **The player after a turn** is the one who survived the strike, with the gold of the
turn, and with what the relics do after a victory. -/
theorem player_resolve :
    (s.resolve run balance raw).run.player
      = ((s.survivorOf run balance raw).earn
          (s.goldOf run balance (s.judgementOf run balance raw))).onCombatEnd
        (s.resolve run balance raw).resolution.monsterDead := by
  have hplayer : (s.resolve run balance raw).run.player =
      let paid := (s.survivorOf run balance raw).earn
        (s.goldOf run balance (s.judgementOf run balance raw))
      let phase := (s.resolve run balance raw).resolution.phase
      if phase.isOver then paid.onCombatEnd (phase == .victory) else paid := rfl
  rw [hplayer, phase_resolve]
  cases (s.resolve run balance raw).resolution.monsterDead with
  | true => rfl
  | false =>
    -- the encounter may be over, but no relic takes part unless the monster is dead
    rw [Player.onCombatEnd_false]
    cases (s.resolve run balance raw).resolution.playerDead with
    | true => exact Player.onCombatEnd_false _
    | false => rfl

section

variable {run} (hwithin : run.player.hp ≤ run.player.maxHp) (halive : 0 < run.player.hp)

include hwithin halive

theorem maxHp_survivorOf_pos : 0 < (s.survivorOf run balance raw).maxHp := by
  have hgentle := run.player.gentle_affected (s.judgementOf run balance raw).appraisal.effects
  rw [survivorOf, Player.maxHp_suffer]
  exact Nat.lt_of_lt_of_le (hgentle.alive hwithin halive) (hgentle.within hwithin)

/-- Hit points stay within their limit in a turn. -/
theorem within_resolve :
    (s.resolve run balance raw).run.player.hp ≤ (s.resolve run balance raw).run.player.maxHp := by
  have hlimit := s.maxHp_survivorOf_pos balance raw hwithin halive
  have hgentle := run.player.gentle_affected (s.judgementOf run balance raw).appraisal.effects
  rw [survivorOf, Player.maxHp_suffer] at hlimit
  rw [player_resolve]
  refine (Player.gentle_onCombatEnd _ _).within ?_
  exact Player.suffer_within (hgentle.within hwithin) hlimit _ _

/-- **Who lives at the end of a turn**: the player who survives the strike, and also the
one who does not, if the monster died as well and a relic heals after victories. -/
theorem hp_resolve_pos_iff :
    0 < (s.resolve run balance raw).run.player.hp
      ↔ 0 < (s.survivorOf run balance raw).hp
        ∨ (s.resolve run balance raw).resolution.monsterDead = true
          ∧ .alchemistFlask ∈ run.player.relics := by
  have hlimit := s.maxHp_survivorOf_pos balance raw hwithin halive
  have hrelics : .alchemistFlask ∈ (s.survivorOf run balance raw).relics
      ↔ .alchemistFlask ∈ run.player.relics := by
    rw [survivorOf, Player.mem_relics_suffer _ _ _ (by decide), Player.relics_affected]
  rw [player_resolve]
  refine (Player.hp_onCombatEnd_pos_iff ?_).trans (or_congr Iff.rfl (and_congr Iff.rfl hrelics))
  exact hlimit

end

end Session

/-! ## What a deed leads to -/

/-- **Whether a deed concerns the encounter alone**, and not the run. -/
def Deed.isLocal : Deed α → Bool
  | .reroll | .submit | .acquire _ => false
  | _ => true

omit [Scalar α] in
/-- An edit concerns the encounter alone. -/
theorem Deed.isLocal_of_isEdit {d : Deed α} (h : d.isEdit = true) : d.isLocal = true := by
  cases d <;> first | rfl | cases h

namespace Scene

/-- **What a deed that is not refused leads to**, as far as the player and the phase of the
encounter are concerned. -/
inductive LeadsTo (balance : Balance α) (c : Scene α) : Deed α → Scene α → Prop where
  /-- The expression, the tray or the target changes. Once the encounter is over, nothing
  but to empty the expression is possible. -/
  | edit {d : Deed α} {s : Session α} (hlocal : d.isLocal = true)
      (hover : c.session.isOver = false ∨ d = .clearExpression)
      (hphase : s.phase = c.session.phase) : LeadsTo balance c d (c.withSession s)
  /-- Dice are rerolled, and the player's relics take part. -/
  | reroll {s : Session α} (hover : c.session.isOver = false)
      (hphase : s.phase = c.session.phase) :
      LeadsTo balance c .reroll ((c.withSession s).withPlayer c.player.onReroll)
  /-- A turn is resolved. -/
  | submit (raw : α) (hover : c.session.isOver = false) :
      LeadsTo balance c .submit ⟨(c.session.resolve c.run balance raw).session,
        (c.session.resolve c.run balance raw).run⟩
  /-- A relic is acquired. -/
  | acquire {r : Relic} {p : Player} (hp : c.player.addRelic r = .ok p) :
      LeadsTo balance c (.acquire r) (c.withPlayer p)

variable {balance : Balance α} {c c' : Scene α} {d : Deed α}

theorem leadsTo_of_perform? (hd : c.perform? balance d = some c') : c.LeadsTo balance d c' := by
  cases becomes_of_perform? hd with
  | edit hedit hover => exact .edit (Deed.isLocal_of_isEdit hedit) (hover.imp_right And.left) rfl
  | reroll hover => exact .reroll hover rfl
  | target hover => exact .edit rfl (.inl hover) rfl
  | turn haccept => exact .submit _ (Session.accept_eq_ok_iff.mp haccept).1
  | acquire hp => exact .acquire hp

/-! ## Vital scenes -/

/-- **A vital scene**: hit points are within their limit, and the player lives as long as
the encounter goes on. -/
structure Vital (c : Scene α) : Prop where
  /-- Hit points are within their limit. -/
  within : c.player.hp ≤ c.player.maxHp
  /-- The player lives as long as the encounter goes on. -/
  alive : c.session.isOver = false → 0 < c.player.hp

namespace Vital

omit [Scalar α] in
/-- What is gentle to the player keeps a scene vital. -/
theorem of_gentle (h : c.Vital) (hgentle : c.player.Gentle c'.player)
    (hphase : c'.session.phase = c.session.phase) : c'.Vital where
  within := hgentle.within h.within
  alive hover := hgentle.alive h.within (h.alive (by rwa [Session.isOver, hphase] at hover))

end Vital

/-- **Every deed keeps a scene vital.** -/
theorem vital_of_perform? (h : c.Vital) (hd : c.perform? balance d = some c') : c'.Vital := by
  cases leadsTo_of_perform? hd with
  | edit _ _ hphase => exact h.of_gentle (.refl _) hphase
  | reroll _ hphase => exact h.of_gentle (Player.gentle_onReroll _) hphase
  | acquire hp => exact h.of_gentle (Player.gentle_addRelic hp) rfl
  | submit raw hover =>
    have halive := h.alive hover
    refine ⟨c.session.within_resolve balance raw h.within halive, fun hgoes => ?_⟩
    -- the encounter goes on only if both sides are alive
    rw [Session.isOver_resolve, Bool.or_eq_false_iff, Session.playerDead_resolve,
      Bool.not_eq_false', Player.isAlive_iff] at hgoes
    exact (c.session.hp_resolve_pos_iff balance raw h.within halive).mpr (.inl hgoes.2)

end Scene

end Arithmancy
