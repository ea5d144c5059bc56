import Arithmancy.Proofs.Encounter.Foresight
import Arithmancy.Proofs.Game.OpenEncounter

/-!
# What a preview shows of a refused submission

A preview is meant to be silent about the end of the turn while a condition would refuse the
submission. It asks the boss first, though. If the boss is immune to the value, the preview
shows a turn that is blocked, and does not ask whether it would come to a turn at all; the
submission asks the conditions first, and is refused.

The main statement, `Session.previewed_damage_iff`, says that this is the only case: unless a
condition objects to a value that the boss is immune to, the preview shows the end of a turn
exactly if the submission would be accepted.
-/

namespace Arithmancy

namespace Session

variable {α : Type} [Scalar α] {s : Session α} {run : Run α} {balance : Balance α}
  {p : Preview α}

/-- **What a preview shows of the damage**: it asks the boss first, and then the conditions. -/
theorem damage_of_preview (h : s.preview run balance = .ok p) :
    p.damage = if p.immunity.isSome then some (s.blockedPreview p.result)
      else if p.violation.isNone then some (s.damagePreview (rulesOf run balance) p.result)
      else none := by
  unfold preview at h
  cases hevaluate : s.expression.evaluate with
  | error fault => simp [hevaluate, bind, Except.bind] at h
  | ok evaluation =>
    rw [hevaluate] at h
    obtain rfl := Except.ok.inj h
    rfl

/-- A preview shows the end of a turn if no condition objects, or if the boss is immune. -/
theorem isSome_damage_iff (h : s.preview run balance = .ok p) :
    p.damage.isSome = true ↔ p.violation = none ∨ p.immunity.isSome = true := by
  rw [damage_of_preview h]
  cases p.immunity with
  | some ability => exact iff_of_true rfl (.inr rfl)
  | none =>
    cases p.violation with
    | none => exact iff_of_true rfl (.inl rfl)
    | some violation => exact iff_of_false nofun (by rintro (h | h) <;> cases h)

section

variable (hover : s.isOver = false) (h : s.preview run balance = .ok p)

include hover h

/-- **A preview names the condition** by which the submission is refused, and no other. -/
theorem violation_of_preview_iff {violation : Violation} :
    p.violation = some violation ↔ s.submit run balance = .error (.condition violation) := by
  obtain ⟨evaluation, hvalue, -, -, hviolation, -⟩ := eq_of_preview h
  rw [hviolation, violation?_eq_some_iff, submit_eq_condition_iff hover hvalue]

/-- **A submission resolves a turn** exactly if its preview names no condition. -/
theorem exists_turn_iff_of_preview :
    (∃ t, s.submit run balance = .ok t) ↔ p.violation = none := by
  obtain ⟨evaluation, hvalue, -, -, hviolation, -⟩ := eq_of_preview h
  rw [hviolation, violation?_eq_none_iff]
  constructor
  · rintro ⟨t, ht⟩
    obtain ⟨raw, haccept, -⟩ := submit_eq_ok_iff.mp ht
    obtain ⟨-, ⟨evaluation', hvalue', rfl⟩, hcheck⟩ := accept_eq_ok_iff.mp haccept
    rwa [Except.ok.inj (hvalue.symm.trans hvalue')]
  · intro hcheck
    exact ⟨_, submit_eq_ok_iff.mpr
      ⟨_, accept_eq_ok_iff.mpr ⟨hover, ⟨evaluation, hvalue, rfl⟩, hcheck⟩, rfl⟩⟩

end

/-- **A preview shows the end of a turn exactly if there will be one**, unless two objections
meet. Whatever the rules and the relics, the submission resolves a turn exactly if the preview
names no condition. The preview shows the end of a turn in the same case, with one exception: if
a condition objects to a value that the boss is immune to, the preview shows a turn that is
blocked, and yet the submission is refused by the condition. -/
theorem previewed_damage_iff (hphase : s.phase = .building)
    (h : s.preview run balance = .ok p) :
    ((∃ t, s.submit run balance = .ok t) ↔ p.violation = none)
      ∧ ((p.damage.isSome = true ↔ ∃ t, s.submit run balance = .ok t)
        ↔ ¬(p.violation.isSome = true ∧ p.immunity.isSome = true))
      ∧ ∀ violation, p.violation = some violation → p.immunity.isSome = true →
        p.damage = some (s.blockedPreview p.result)
          ∧ s.submit run balance = .error (.condition violation) := by
  have hover := isOver_eq_false_iff.mpr hphase
  have hturn := exists_turn_iff_of_preview hover h
  refine ⟨hturn, ?_, fun violation hviolation himmune => ⟨?_, ?_⟩⟩
  · rw [hturn, isSome_damage_iff h]
    cases p.violation with
    | none => simp
    | some violation => simp
  · rw [damage_of_preview h, if_pos himmune]
  · exact (violation_of_preview_iff hover h).mp hviolation

end Session

namespace Game

/-- The moves of a player who slays a rat and meets a boss that is immune to all numbers but
primes, in an encounter in which results must be even. -/
def ministerVisit : List (Move Float) :=
  [.startCombat (.monster "rat"), .placeDie ⟨1⟩, .submit, .finishCombat,
    .startCombat (.monster "prime_minister")]

/-- The same player, about to strike with four. -/
def evenStrike : List (Move Float) :=
  ministerVisit ++ [.placeDie ⟨1⟩, .placeOperator 0, .placeDie ⟨3⟩]

/-- Four is even, but no prime: the preview shows a turn that is blocked, and there will be
one. -/
theorem previewed_damage_minister :
    ∃ g s p, Game.new { Settings.standard with seed := 7 } .builtIn = .ok g
      ∧ (g.after evenStrike).session = some s ∧ s.phase = .building
      ∧ s.preview (g.after evenStrike).run .standard = .ok p
      ∧ p.immunity = some .primeOnly ∧ p.damage.isSome = true
      ∧ ∃ t, s.submit (g.after evenStrike).run .standard = .ok t := by
  obtain ⟨g, hnew, hopen, hbuilding, hshown⟩ :
      ∃ g : Game Float, Game.new { Settings.standard with seed := 7 } .builtIn = .ok g
        ∧ (g.after evenStrike).session.isSome = true
        ∧ (∀ s ∈ (g.after evenStrike).session, s.phase = .building)
        ∧ ∀ s ∈ (g.after evenStrike).session,
          (s.preview (g.after evenStrike).run .standard).toOption.any
            (fun p => p.violation.isNone && p.immunity == some .primeOnly) = true :=
    ⟨_, rfl, by decide +kernel⟩
  obtain ⟨s, hs⟩ := Option.isSome_iff_exists.mp hopen
  have hphase := hbuilding s hs
  have hp := hshown s hs
  cases hpreview : s.preview (g.after evenStrike).run .standard with
  | error fault =>
    rw [hpreview] at hp
    cases hp
  | ok p =>
    rw [hpreview] at hp
    obtain ⟨hnone, himmune⟩ := (Bool.and_eq_true_iff.mp hp).imp Option.isNone_iff_eq_none.mp
      beq_iff_eq.mp
    obtain ⟨hturn, hshows, -⟩ := Session.previewed_damage_iff hphase hpreview
    have haccepted := hturn.mpr hnone
    refine ⟨g, s, p, hnew, hs, hphase, hpreview, himmune, ?_, haccepted⟩
    refine (hshows.mpr fun hboth => ?_).mpr haccepted
    rw [hnone] at hboth
    cases hboth.1

/-- **A refused submission is shown as a turn**: one is neither prime nor even. -/
theorem refused_yet_shown :
    ∃ g : Game Float, Game.new { Settings.standard with seed := 7 } .builtIn = .ok g
      ∧ (g.after (ministerVisit ++ [.placeDie ⟨0⟩])).session.any
          (fun s => s.phase == .building) = true
      ∧ (g.after (ministerVisit ++ [.placeDie ⟨0⟩])).preview.answer.toOption.any
          (fun p => p.violation == some .notEven && p.damage.isSome) = true
      ∧ (g.after (ministerVisit ++ [.placeDie ⟨0⟩])).submit.answer.isOk = false :=
  ⟨_, rfl, by decide +kernel⟩

end Game

end Arithmancy
