import Arithmancy.Balance
import Arithmancy.Number.Scalar
import Arithmancy.Toml.Reader

/-!
# The balance file

A file can override the amounts the game is balanced by. It is a document of keys and
values; a key that is left out keeps the standard amount, and a key that is not known is
ignored. Counts are integers of 32 bits, thresholds are numbers that must not be
negative.
-/

namespace Arithmancy

/-- **Why a balance file is refused.** -/
inductive BalanceFault where
  /-- The file is no document, or a value is of the wrong kind. -/
  | malformed
  /-- A threshold is negative. -/
  | negativeThreshold
  /-- The file cannot be read. -/
  | unreadable (path reason : String)
deriving DecidableEq, Repr

namespace BalanceFault

/-- The message of each cause. -/
def message : BalanceFault → String
  | malformed => "Failed to parse config TOML"
  | negativeThreshold => "Config thresholds must not be negative"
  | unreadable path reason => s!"Failed to read file {path}: {reason}"

end BalanceFault

namespace Toml

namespace Value

/-- A value as a count of 32 bits. -/
def count? : Value → Option Nat
  | integer n => if 0 ≤ n && n ≤ maxCount32 then some n.toNat else none
  | _ => none

/-- A value as a number: one with a point, or an integer of 64 bits, with or without a
sign. -/
def number? {α : Type} [Scalar α] : Value → Option α
  | integer n => if minInt64 ≤ n && n ≤ maxCount64 then some (Scalar.ofInt n) else none
  | float d => Scalar.ofDecimal? d
  | _ => none

end Value

namespace Entries

/-- What the value of a key is read as; a default without the key, and nothing if the
value is of the wrong kind. -/
def getAs? {β : Type} (es : Entries) (read? : Value → Option β) (key : String) (default : β) :
    Option β :=
  match es.get? key with
  | none => some default
  | some v => read? v

end Entries

end Toml

namespace Balance

open Toml (Entries Value)

variable {α : Type} [Scalar α]

/-- The balance that the entries of a document describe, if all values are of the right
kind. -/
def ofEntries? (es : Entries) : Option (Balance α) := do
  let base : Balance α := .standard
  return {
    startingHp := ← es.getAs? Value.count? "starting_hp" base.startingHp
    startingGold := ← es.getAs? Value.count? "starting_gold" base.startingGold
    rerollsPerTurn := ← es.getAs? Value.count? "rerolls_per_turn" base.rerollsPerTurn
    nearMissThreshold := ← es.getAs? Value.number? "near_miss_threshold" base.nearMissThreshold
    tightWindow := ← es.getAs? Value.number? "tight_window" base.tightWindow
    baseGold := ← es.getAs? Value.count? "base_gold" base.baseGold
    eliteGold := ← es.getAs? Value.count? "elite_gold" base.eliteGold }

/-- **Reads a balance file.** -/
def read (text : String) : Except BalanceFault (Balance α) :=
  match Toml.read? text >>= ofEntries? with
  | none => .error .malformed
  | some b =>
    if b.nearMissThreshold < 0 || b.tightWindow < 0 then .error .negativeThreshold else .ok b

end Balance

end Arithmancy
