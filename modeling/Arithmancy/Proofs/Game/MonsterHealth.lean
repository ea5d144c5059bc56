import Arithmancy.Proofs.Encounter.Opening
import Arithmancy.Proofs.Encounter.Remainder
import Arithmancy.Proofs.Game.Refusal

/-!
# Hit points of monsters

Numbers are read exactly here, whatever roots, logarithms and powers are. A monster starts with
all its hit points, and a turn is meant to take some away. So it does, with one exception: a
result that wounds nobody rounds the hit points up where the number to hit has a fraction
(`Resolution.RoundsUp`). The main statement, `Game.hp_falls_unless_rounded`, says that this is
the only exception, that it gives back no more than the missing fraction, and that the hit
points of a monster therefore stay between zero and the most it can have, rounded up.
-/

namespace Arithmancy

/-- **Hit points are bounded** by zero and by the most that the monster can have, rounded up. -/
def Monster.Bounded [Exact.Operations] (m : Monster Rat) : Prop :=
  0 ≤ m.hp ∧ m.hp ≤ Scalar.ceil m.maxHp

namespace Monster

variable [Exact.Operations]

/-- A monster with all its hit points is bounded. -/
theorem bounded_of_full {m : Monster Rat} (hfull : m.maxHp = m.hp) (h : 0 ≤ m.hp) : m.Bounded :=
  ⟨h, hfull ▸ Rat.le_ceil⟩

/-- A drawn target is positive, with or without a fraction. -/
theorem pos_of_start {run : Run Rat} {bestiary : Bestiary} {challenge : Challenge}
    {s : Session Rat} (h : Session.start run bestiary challenge = .ok s) : 0 < s.monster.hp := by
  obtain ⟨template, g, n, hn, hhp⟩ := Session.hp_of_start h
  have hpos : 0 < n := hn ▸ Nat.lt_of_lt_of_le (by decide) (le_drawnHp template _ _ g)
  have hwhole := Exact.ofNat_pos hpos
  rcases hhp with hplain | ⟨fraction, hmem, hfraction⟩
  · rw [hplain]
    exact hwhole
  · have hfloor : Scalar.floor (Scalar.ofNat n : Rat) = Scalar.ofNat n := by
      show ((((n : Int) : Rat).floor : Int) : Rat) = ((n : Int) : Rat)
      rw [Rat.floor_intCast]
    have hpart : ∀ x ∈ (Session.decimalFractions : List Rat), 0 ≤ x := by
      show ∀ x ∈ ([0.5, 0.25, 0.75] : List Rat), 0 ≤ x
      decide +kernel
    rw [hfraction, hfloor]
    exact add_pos_of_pos_of_nonneg hwhole (hpart fraction hmem)

theorem bounded_of_start {run : Run Rat} {bestiary : Bestiary} {challenge : Challenge}
    {s : Session Rat} (h : Session.start run bestiary challenge = .ok s) : s.monster.Bounded :=
  bounded_of_full (Session.maxHp_of_start h) (pos_of_start h).le

end Monster

/-- **A turn keeps hit points bounded**: what it leaves is at most what there was, rounded up. -/
theorem Session.bounded_resolve [Exact.Operations] {s : Session Rat} (h : s.monster.Bounded)
    (run : Run Rat) (balance : Balance Rat) (raw : Rat) :
    (s.resolve run balance raw).session.monster.Bounded := by
  obtain ⟨hnonneg, hfalls, hrounds⟩ := s.monsterHp_resolve run balance raw h.1
  rw [(s.settles_resolve run balance raw).monster]
  refine ⟨hnonneg, ?_⟩
  show (s.resolve run balance raw).resolution.monsterHp ≤ Scalar.ceil s.monster.maxHp
  by_cases hround : (s.resolve run balance raw).resolution.RoundsUp
  · rw [hrounds hround]
    show ((s.monster.hp).ceil : Rat) ≤ ((s.monster.maxHp).ceil : Rat)
    exact_mod_cast Rat.ceil_le_iff.mpr h.2
  · exact (hfalls.mpr hround).trans h.2

namespace Game

/-! ## Every open encounter -/

section

variable {α : Type} [Scalar α] {P : Phase → Monster α → Prop}

/-- A monster that is met, that is struck, or whose target is drawn anew: nothing else happens to
the monster of an open encounter. -/
theorem monster_of_course {g g' : Game α} {m : Move α} {refused : Bool} {events : List (Event α)}
    (hstart : ∀ {run bestiary challenge s}, Session.start run bestiary challenge = .ok s →
      P s.phase s.monster)
    (hturn : ∀ {s : Session α} {run balance t}, P s.phase s.monster →
      s.submit run balance = .ok t → P t.session.phase t.session.monster)
    (htarget : ∀ {phase m} floor modifiers generator, P phase m →
      P phase (m.rerollTarget floor modifiers (generator : Generator α)).1)
    (h : ∀ s, g.session = some s → P s.phase s.monster)
    (hcourse : g.Course m refused g' events) :
    ∀ s, g'.session = some s → P s.phase s.monster := by
  cases hcourse with
  | refused _ => exact h
  | look => exact h
  | acquire _ => exact h
  | win _ _ => exact fun _ hs => nomatch hs
  | lose _ _ => exact fun _ hs => nomatch hs
  | giveUp => exact fun _ hs => nomatch hs
  | start _ _ hs => exact fun s' hs' => Option.some.inj hs' ▸ hstart hs
  | turn hs ht => exact fun s' hs' => Option.some.inj hs' ▸ hturn (h _ hs) ht
  | deed hm hsubmit hs hd =>
    have hbefore := h _ hs
    intro s' hs'
    obtain rfl := Option.some.inj hs'
    cases Scene.becomes_of_perform? hd with
    | edit _ _ => exact hbefore
    | reroll _ => exact hbefore
    | target _ => exact htarget _ _ _ hbefore
    | turn _ => exact absurd rfl hsubmit
    | acquire _ => exact absurd hm (Move.deed?_ne_acquire _ _)

/-- **What holds of every monster that is met**, and stays so when it is struck and when its
target is drawn anew, holds of the monster of every open encounter. -/
theorem Reached.monster_induction {g : Game α}
    (hstart : ∀ {run bestiary challenge s}, Session.start run bestiary challenge = .ok s →
      P s.phase s.monster)
    (hturn : ∀ {s : Session α} {run balance t}, P s.phase s.monster →
      s.submit run balance = .ok t → P t.session.phase t.session.monster)
    (htarget : ∀ {phase m} floor modifiers generator, P phase m →
      P phase (m.rerollTarget floor modifiers (generator : Generator α)).1)
    (h : g.Reached) : ∀ s, g.session = some s → P s.phase s.monster := by
  induction h with
  | new h =>
    rw [eq_of_new h]
    exact fun _ hs => nomatch hs
  | play _ m ih => exact monster_of_course hstart hturn htarget ih (course_play _ m)

end

section

variable [Exact.Operations] {g : Game Rat}

theorem Reached.bounded (h : g.Reached) : ∀ s, g.session = some s → s.monster.Bounded :=
  h.monster_induction (P := fun _ m => m.Bounded) Monster.bounded_of_start
    (fun hbounded ht => by
      obtain ⟨raw, -, rfl⟩ := Session.submit_eq_ok_iff.mp ht
      exact Session.bounded_resolve hbounded _ _ _)
    fun _ _ _ _ => Monster.bounded_of_full rfl (Exact.ofNat_nonneg _)

/-- **Hit points of monsters fall, unless they are rounded up.** In every game that is reached
they are bounded. A turn leaves no more of them than there were unless it rounds them up, and
then it leaves exactly what rounding gives. When the target of a boss is drawn anew, the boss
has all its hit points again. -/
theorem hp_falls_unless_rounded (h : g.Reached) :
    (∀ s, g.session = some s →
        0 ≤ s.monster.hp ∧ s.monster.hp ≤ Scalar.ceil s.monster.maxHp)
      ∧ (∀ s r, g.session = some s → g.submit.answer = .ok r →
        ∃ s', g.submit.game.session = some s' ∧ s'.monster.maxHp = s.monster.maxHp
          ∧ (s'.monster.hp ≤ s.monster.hp ↔ ¬r.RoundsUp)
          ∧ (r.RoundsUp → s'.monster.hp = Scalar.ceil s.monster.hp))
      ∧ ((g.play .rerollBossTarget).answer = .ok (.flag true) →
        ∃ s', (g.play .rerollBossTarget).game.session = some s'
          ∧ s'.monster.maxHp = s'.monster.hp ∧ Scalar.isInteger s'.monster.hp = true) := by
  refine ⟨fun s hs => h.bounded s hs, fun s r hs hr => ?_, fun hanswer => ?_⟩
  · obtain ⟨t, ht, rfl, hgame⟩ := exists_turn_of_submit hs hr
    obtain ⟨raw, -, rfl⟩ := Session.submit_eq_ok_iff.mp ht
    have hmonster := (s.settles_resolve g.run g.settings.balance raw).monster
    obtain ⟨-, hfalls, hrounds⟩ :=
      s.monsterHp_resolve g.run g.settings.balance raw (h.bounded s hs).1
    rw [hgame]
    refine ⟨_, rfl, ?_⟩
    rw [hmonster]
    exact ⟨rfl, hfalls, hrounds⟩
  · have hcourse := g.course_play .rerollBossTarget
    have haccepted : (g.play .rerollBossTarget).isRefused = false := by
      rw [Step.isRefused, hanswer]
    rw [haccepted] at hcourse
    generalize (g.play .rerollBossTarget).game = g' at hcourse ⊢
    generalize (g.play .rerollBossTarget).events = events at hcourse
    cases hcourse with
    | deed hm _ _ hd =>
      obtain rfl := Option.some.inj hm
      cases Scene.becomes_of_perform? hd with
      | edit hedit _ => cases hedit
      | target _ => exact ⟨_, rfl, rfl, Exact.isInteger_iff.mpr ⟨_, rfl⟩⟩

end

/-- The moves of a player who is about to strike a rat. -/
def ratStrike : List (Move Rat) := [.startCombat (.monster "rat"), .placeDie ⟨0⟩]

/-- The strike takes hit points from the rat. -/
theorem hp_falls_rat :
    ∃ g s r s', Game.new .standard .builtIn = .ok g ∧ (g.after ratStrike).session = some s
      ∧ (g.after ratStrike).submit.answer = .ok r
      ∧ (g.after ratStrike).submit.game.session = some s'
      ∧ 0 < r.outcome.dealt ∧ s'.monster.hp ≤ s.monster.hp := by
  obtain ⟨g, hnew, hopen, hstrike⟩ : ∃ g, Game.new .standard .builtIn = .ok g
      ∧ (g.after ratStrike).session.isSome = true
      ∧ (g.after ratStrike).submit.answer.toOption.any (fun r => decide (0 < r.outcome.dealt))
        = true := ⟨_, rfl, by decide +kernel⟩
  obtain ⟨s, hs⟩ := Option.isSome_iff_exists.mp hopen
  cases hr : (g.after ratStrike).submit.answer with
  | error fault =>
    rw [hr] at hstrike
    cases hstrike
  | ok r =>
    rw [hr] at hstrike
    have hdealt : 0 < r.outcome.dealt := of_decide_eq_true hstrike
    obtain ⟨s', hs', -, hfalls, -⟩ :=
      (hp_falls_unless_rounded (.after (.new hnew) ratStrike)).2.1 s r hs hr
    exact ⟨g, s, r, s', hnew, hs, hr, hs', hdealt,
      hfalls.mpr fun h => absurd h.2.1 (not_le.mpr hdealt)⟩

/-- The moves of a player who has slain five bats, one with every strike, and takes one die
from an equal one before the sixth. -/
def batHunt : List (Move Rat) :=
  ([2, 0, 1, 1, 1].flatMap fun id =>
      [.startCombat (.monster "bat"), .placeDie ⟨id⟩, .submit, .finishCombat])
    ++ [.startCombat (.monster "bat"), .placeDie ⟨0⟩, .placeOperator 1, .placeDie ⟨1⟩]

/-- **A bat is given hit points**: the sixth has 17 and a quarter, all that it can have, and
eighteen after a turn that wounds nobody. -/
theorem bat_rounded_up :
    ∃ g : Game Rat, Game.new { Settings.standard with seed := 340 } .builtIn = .ok g
      ∧ (g.after batHunt).submit.answer.isOk = true
      ∧ ((g.after batHunt).session.map (·.monster)).any
        (fun m => m.hp == 69 / 4 && m.maxHp == 69 / 4) = true
      ∧ ((g.after batHunt).submit.game.session.map (·.monster)).any
        (fun m => m.hp == 18 && m.maxHp == 69 / 4) = true :=
  ⟨_, rfl, by decide +kernel⟩

end Game

end Arithmancy
