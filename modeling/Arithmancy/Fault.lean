/-!
# Faults

Whatever the game refuses, it refuses with a fault. Each fault belongs to a
type of its own, next to the operation that raises it, and states a cause. This
module holds what all faults share: a severity, a stable code and a sentence for
the player.
-/

namespace Arithmancy

/-- How a fault is to be treated. None of them ends a run. -/
inductive Severity where
  /-- The player edits the expression and tries again. -/
  | recoverable
  /-- The request itself is invalid and is refused. -/
  | validation
  /-- Content or state contradict each other. -/
  | internal
deriving DecidableEq, Repr

namespace Severity

/-- The written name of a severity. -/
def label : Severity → String
  | recoverable => "recoverable"
  | validation => "validation"
  | internal => "internal"

/-- Whether another attempt can succeed. -/
def isRecoverable : Severity → Bool
  | recoverable => true
  | _ => false

/-- Whether the fault points at an inconsistency of the game. -/
def isInternal : Severity → Bool
  | internal => true
  | _ => false

end Severity

/-- **A type of faults**: every cause has a severity, a code that never changes
and a message. -/
class Fault (ε : Type) where
  /-- How the fault is to be treated. -/
  severity : ε → Severity
  /-- The code of the cause, the same for every occurrence. -/
  code : ε → String
  /-- The sentence shown to the player. -/
  message : ε → String

end Arithmancy
