import Arithmancy.Condition.Violation
import Arithmancy.Expression.Fault

/-!
# What an encounter refuses

Three kinds of request can be refused: an edit of the expression, a submission, and
the start of an encounter. A refusal changes nothing.
-/

namespace Arithmancy

/-- **Why an edit of the expression is refused.** -/
inductive EditFault where
  /-- The encounter is over. -/
  | notBuilding
  /-- There is no such die on the tray. -/
  | unknownDie (id : DieId)
  /-- The die shows nothing yet. -/
  | dieNotRolled (id : DieId)
  /-- The die is in the expression already. -/
  | dieAlreadyPlaced (id : DieId)
  /-- The number is not the one the die shows. -/
  | valueMismatch (id : DieId)
  /-- The number comes from no die. -/
  | numberWithoutDie
  /-- The operator comes from no card. -/
  | operatorWithoutCard
  /-- The hand has no such slot. -/
  | unknownCard (slot : Nat)
  /-- The slot holds another operator. -/
  | cardMismatch (slot : Nat) (held requested : Operator)
  /-- The card may not be placed again. -/
  | cardExhausted (slot : Nat)
  /-- The expression has no such place. -/
  | indexOutOfRange (index length : Nat)
deriving DecidableEq, Repr

namespace EditFault

/-- The severity of each cause. -/
def severity : EditFault → Severity
  | notBuilding => .recoverable
  | _ => .validation

/-- The code of each cause. -/
def code : EditFault → String
  | notBuilding => "TOKEN_NOT_BUILDING"
  | unknownDie _ => "TOKEN_UNKNOWN_DIE"
  | dieNotRolled _ => "TOKEN_DIE_NOT_ROLLED"
  | dieAlreadyPlaced _ => "TOKEN_DIE_ALREADY_PLACED"
  | valueMismatch _ => "TOKEN_VALUE_MISMATCH"
  | numberWithoutDie => "TOKEN_NUMBER_WITHOUT_DIE"
  | operatorWithoutCard => "TOKEN_OPERATOR_WITHOUT_CARD"
  | unknownCard _ => "TOKEN_UNKNOWN_CARD"
  | cardMismatch .. => "TOKEN_CARD_MISMATCH"
  | cardExhausted _ => "TOKEN_CARD_EXHAUSTED"
  | indexOutOfRange .. => "TOKEN_INDEX_OUT_OF_RANGE"

/-- The message of each cause. -/
def message : EditFault → String
  | notBuilding => "combat is over"
  | unknownDie id => s!"{id.text} is not on the tray"
  | dieNotRolled id => s!"{id.text} has not been rolled"
  | dieAlreadyPlaced id => s!"{id.text} is already in the expression"
  | valueMismatch id => s!"number does not match the face shown by {id.text}"
  | numberWithoutDie => "numbers must come from a die on the tray"
  | operatorWithoutCard => "operators must come from a card in hand"
  | unknownCard slot => s!"no operator card at hand slot {slot}"
  | cardMismatch slot held requested =>
    s!"hand slot {slot} holds {label held}, not {label requested}"
  | cardExhausted slot => s!"operator card at hand slot {slot} is already used up"
  | indexOutOfRange index length =>
    s!"slot {index} is out of range for an expression of {length} tokens"

instance : Fault EditFault := ⟨severity, code, message⟩

end EditFault

/-- **Why a submission does not resolve a turn.** -/
inductive SubmissionFault (α : Type) where
  /-- The encounter is over. -/
  | notBuilding
  /-- The expression has no value. -/
  | expression (fault : ExpressionFault α)
  /-- A condition refuses the submission. -/
  | condition (violation : Violation)
deriving DecidableEq, Repr

namespace SubmissionFault

variable {α : Type}

/-- The severity of each cause: the player can always try again. -/
def severity : SubmissionFault α → Severity := fun _ => .recoverable

/-- The code of each cause. -/
def code : SubmissionFault α → String
  | notBuilding => "EVALUATE_NOT_BUILDING"
  | expression fault => fault.code
  | condition violation => violation.code

/-- The message of each cause. -/
def message [Scalar α] : SubmissionFault α → String
  | notBuilding => "combat is over"
  | expression fault => fault.message
  | condition violation => violation.message

instance [Scalar α] : Fault (SubmissionFault α) := ⟨severity, code, message⟩

end SubmissionFault

/-- **Why an encounter cannot start.** -/
inductive StartFault where
  /-- The bestiary has no such monster. -/
  | unknownMonster (id : String)
  /-- The bestiary has no monster of the kind and tier to draw from. -/
  | emptyMonsterPool (elite : Bool) (tier : Nat)
  /-- The player has no dice. -/
  | emptyDicePool
deriving DecidableEq, Repr

namespace StartFault

/-- The severity of each cause. -/
def severity : StartFault → Severity
  | emptyDicePool => .validation
  | _ => .internal

/-- The code of each cause. -/
def code : StartFault → String
  | unknownMonster _ => "COMBAT_UNKNOWN_MONSTER"
  | emptyMonsterPool .. => "COMBAT_EMPTY_MONSTER_POOL"
  | emptyDicePool => "COMBAT_EMPTY_DICE_POOL"

/-- The message of each cause. -/
def message : StartFault → String
  | unknownMonster id => s!"unknown monster: {id}"
  | emptyMonsterPool elite tier =>
    let kind := if elite then "elite" else "regular"
    s!"no {kind} monsters available for tier {tier}"
  | emptyDicePool => "the player has no dice"

instance : Fault StartFault := ⟨severity, code, message⟩

end StartFault

end Arithmancy
