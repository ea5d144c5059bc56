import Arithmancy.Ascension
import Arithmancy.Condition.Basic
import Arithmancy.Monster.Ability

/-!
# The outcome of a turn

A result is judged against a target. Close enough is an exact hit; beyond that it is
an overkill; just below, within a threshold, it is a near miss; further below it is
an underkill, which only wounds. Some conditions block a result by where it lands,
and the first of them in the list that does decides.
-/

namespace Arithmancy

/-- The distances by which results are judged. -/
structure DamageRules (α : Type) where
  /-- The largest shortfall that still kills. -/
  nearMissThreshold : α
  /-- The largest distance allowed under the tight window. -/
  tightWindow : α
  /-- Results closer to the target than this are exact. -/
  exactTolerance : α
deriving DecidableEq, Repr

/-- Why a turn dealt no damage. -/
inductive BlockReason (α : Type) where
  /-- The result exceeds a target that must not be exceeded. -/
  | noOverkill
  /-- The result does not exceed a target that must be exceeded. -/
  | mustOverkill
  /-- The result is too far from the target. -/
  | tightWindow
  /-- The boss is immune to the result. -/
  | boss (ability : BossAbility) (result : α)
deriving DecidableEq, Repr

namespace BlockReason

/-- What the player is told. -/
def text {α : Type} [Scalar α] : BlockReason α → String
  | noOverkill => "No overkill allowed!"
  | mustOverkill => "Must exceed the target!"
  | tightWindow => "Outside the tight window!"
  | boss ability result =>
    let rounded := Scalar.text (Figures.roundHalfUp result)
    s!"{ability.description} Your result of {rounded} was blocked!"

end BlockReason

/-- How a result lands. -/
inductive OutcomeKind (α : Type) where
  /-- On the target. -/
  | exact
  /-- Above it. -/
  | overkill
  /-- Just below it. -/
  | nearMiss
  /-- Further below it. -/
  | underkill
  /-- Nowhere. -/
  | blocked (reason : BlockReason α)
deriving DecidableEq, Repr

namespace OutcomeKind

/-- Whether a result that lands so kills the monster. -/
def isLethal {α : Type} : OutcomeKind α → Bool
  | exact | overkill | nearMiss => true
  | underkill | blocked _ => false

end OutcomeKind

/-- **What a result does to the monster, and whether it strikes back.** -/
structure Outcome (α : Type) where
  /-- The damage dealt. -/
  dealt : α
  /-- Whether the monster strikes back. -/
  retaliate : Bool
  /-- How the result lands. -/
  kind : OutcomeKind α
deriving DecidableEq, Repr

namespace Outcome

variable {α : Type}

/-- A blocked result deals nothing and always provokes the monster. -/
def blocked [Scalar α] (reason : BlockReason α) : Outcome α := ⟨0, true, .blocked reason⟩

/-- Whether the result hit the target. -/
def isExact (o : Outcome α) : Bool :=
  match o.kind with
  | .exact => true
  | _ => false

/-- Whether the result went over the target. -/
def isOverkill (o : Outcome α) : Bool :=
  match o.kind with
  | .overkill => true
  | _ => false

/-- Whether the result landed just below the target. -/
def isNearMiss (o : Outcome α) : Bool :=
  match o.kind with
  | .nearMiss => true
  | _ => false

/-- Whether the result fell short. -/
def isUnderkill (o : Outcome α) : Bool :=
  match o.kind with
  | .underkill => true
  | _ => false

/-- Whether the result kills. -/
def isLethal (o : Outcome α) : Bool := o.kind.isLethal

/-- Why the result was blocked, if it was. -/
def blockReason? (o : Outcome α) : Option (BlockReason α) :=
  match o.kind with
  | .blocked reason => some reason
  | _ => none

end Outcome

namespace DamageRules

variable {α : Type} [Scalar α]

/-- The distances in force for a balance and an ascension. -/
def inForce (balance : Balance α) (modifiers : Modifiers α) : DamageRules α where
  nearMissThreshold := modifiers.nearMissThreshold
  tightWindow := balance.tightWindow
  exactTolerance := Balance.exactTolerance

/-- How far a result is from the target. -/
def distance (result target : α) : α := Scalar.abs (result - target)

/-- Whether a result counts as hitting the target. -/
def isExact (rules : DamageRules α) (result target : α) : Bool :=
  distance result target < rules.exactTolerance

/-- Whether a result lies beyond the target and does not count as hitting it. -/
def isOver (rules : DamageRules α) (result target : α) : Bool :=
  target < result && !rules.isExact result target

/-- Whether a result lies below the target and does not count as hitting it. -/
def isUnder (rules : DamageRules α) (result target : α) : Bool :=
  result < target && !rules.isExact result target

/-- Why one condition blocks a result, if it does. -/
def gate? (rules : DamageRules α) (result target : α) : Condition → Option (BlockReason α)
  | .noOverkill => if rules.isOver result target then some .noOverkill else none
  | .mustOverkill => if rules.isOver result target then none else some .mustOverkill
  | .tightWindow =>
    if rules.tightWindow < distance result target && !rules.isExact result target
    then some .tightWindow else none
  | _ => none

/-- The wound of a result that falls short: the result rounded up, or its double
under the condition that doubles damage. -/
def wound (conditions : List Condition) (result : α) : α :=
  if conditions.contains .glassCannon then Scalar.ceil (result * 2) else Scalar.ceil result

/-- **Judges a result that no condition blocks.** -/
def land (rules : DamageRules α) (conditions : List Condition) (result target : α) : Outcome α :=
  if rules.isExact result target then ⟨target, false, .exact⟩
  else if rules.isOver result target then ⟨target, !conditions.contains .gentle, .overkill⟩
  else if rules.isUnder result target && distance result target ≤ rules.nearMissThreshold then
    ⟨target, true, .nearMiss⟩
  else ⟨wound conditions result, true, .underkill⟩

/-- **Judges a result against a target under conditions.** -/
def judge (rules : DamageRules α) (conditions : List Condition) (result target : α) : Outcome α :=
  match conditions.findSome? (rules.gate? result target) with
  | some reason => .blocked reason
  | none => rules.land conditions result target

end DamageRules

end Arithmancy
