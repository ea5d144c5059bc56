import Arithmancy.Number.Figures
import Arithmancy.Text

/-!
# Operator cards

The player combines dice by operator cards. A card stands before, after or between
its operands, or is a parenthesis; its precedence says how tightly it binds.

| precedence | operators |
|------------|-----------|
| 1 | sum and difference |
| 2 | product, quotient and remainder |
| 3 | power, the only operator that groups to the right |
| 4 | concatenation of digits |
| 5 | root, opposite and logarithm, written before their operand |
| 6 | factorial, square, triangle and rectangle, written after it |

An operator that is not defined for its operands has no value there; one that
leaves the finite numbers is refused by the evaluation.
-/

namespace Arithmancy

/-- The operators, in catalog order. -/
inductive Operator where
  | add | subtract | multiply | divide | modulo | power | concat
  | sqrt | negate | log
  | factorial | square | triangle | rectangle
  | openParen | closeParen
deriving DecidableEq, Repr

/-- Where an operator stands relative to its operands. -/
inductive Fixity where
  /-- Before its one operand. -/
  | before
  /-- After its one operand. -/
  | after
  /-- Between its two operands. -/
  | between
  /-- Opens a group. -/
  | opening
  /-- Closes a group. -/
  | closing
deriving DecidableEq, Repr

/-- How rare an operator card is among rewards. -/
inductive OperatorRarity where
  | common | uncommon | rare | legendary | exotic
deriving DecidableEq, Repr

namespace OperatorRarity

instance : Labelled OperatorRarity where
  all := [common, uncommon, rare, legendary, exotic]
  label
    | common => "common"
    | uncommon => "uncommon"
    | rare => "rare"
    | legendary => "legendary"
    | exotic => "exotic"

end OperatorRarity

/-- What an operator does to its operands. -/
inductive Action (α : Type) where
  /-- Turns one operand into a value. -/
  | unary (f : α → Option α)
  /-- Turns two operands, the left one first, into a value. -/
  | binary (f : α → α → Option α)
  /-- Shapes the reading only. -/
  | grouping

/-! ## The operations -/

namespace Operation

open Scalar

variable {α : Type} [Scalar α]

/-- The largest exponent of a power, up to sign. -/
def maxExponent : α := 20

/-- The quotient by a number other than zero. -/
def divide? (a b : α) : Option α := if b == 0 then none else some (a / b)

/-- The remainder by a number other than zero, with the sign of the dividend. -/
def modulo? (a b : α) : Option α := if b == 0 then none else some (rem a b)

/-- The power with an exponent of at most twenty. -/
def power? (a b : α) : Option α := if maxExponent < abs b then none else pow? a b

/-- The digits of two integers that are not negative, written together. -/
def concat? (a b : α) : Option α :=
  if a < 0 || b < 0 || !isInteger a || !isInteger b then none
  else read? (text a ++ text b)

/-- The root of a number that is not negative. -/
def root? (a : α) : Option α := if a < 0 then none else sqrt? a

/-- The binary logarithm of a positive number. -/
def logarithm? (a : α) : Option α := if a ≤ 0 then none else log2? a

end Operation

namespace Operator

instance : Labelled Operator where
  all := [add, subtract, multiply, divide, modulo, power, concat, sqrt, negate, log,
    factorial, square, triangle, rectangle, openParen, closeParen]
  label
    | add => "add"
    | subtract => "subtract"
    | multiply => "multiply"
    | divide => "divide"
    | modulo => "modulo"
    | power => "power"
    | concat => "concat"
    | sqrt => "sqrt"
    | negate => "negate"
    | log => "log"
    | factorial => "factorial"
    | square => "square"
    | triangle => "triangle"
    | rectangle => "rectangle"
    | openParen => "lparen"
    | closeParen => "rparen"

/-- The sign written in an expression. -/
def symbol : Operator → String
  | add => "+"
  | subtract => "−"
  | multiply => "×"
  | divide => "÷"
  | modulo => "%"
  | power => "^"
  | concat => "‖"
  | sqrt => "√"
  | negate => "−x"
  | log => "log₂"
  | factorial => "!"
  | square => "²"
  | triangle => "△"
  | rectangle => "▭"
  | openParen => "("
  | closeParen => ")"

/-- The name on the card. -/
def name : Operator → String
  | add => "Add"
  | subtract => "Subtract"
  | multiply => "Multiply"
  | divide => "Divide"
  | modulo => "Modulo"
  | power => "Power"
  | concat => "Concatenate"
  | sqrt => "Square Root"
  | negate => "Negate"
  | log => "Log Base 2"
  | factorial => "Factorial"
  | square => "Square"
  | triangle => "Triangle"
  | rectangle => "Rectangle"
  | openParen => "("
  | closeParen => ")"

/-- Where the operator stands. -/
def fixity : Operator → Fixity
  | add | subtract | multiply | divide | modulo | power | concat => .between
  | sqrt | negate | log => .before
  | factorial | square | triangle | rectangle => .after
  | openParen => .opening
  | closeParen => .closing

/-- How tightly the operator binds; a parenthesis does not bind. -/
def precedence : Operator → Nat
  | openParen | closeParen => 0
  | add | subtract => 1
  | multiply | divide | modulo => 2
  | power => 3
  | concat => 4
  | sqrt | negate | log => 5
  | factorial | square | triangle | rectangle => 6

/-- Whether equal operators in a row group to the right. -/
def groupsRight : Operator → Bool
  | power => true
  | _ => false

/-- How rare the card is. -/
def rarity : Operator → OperatorRarity
  | add | subtract | multiply => .common
  | divide | modulo | negate | triangle | rectangle | openParen | closeParen => .uncommon
  | power | sqrt | log | square => .rare
  | factorial => .legendary
  | concat => .exotic

/-- The number of operands. -/
def arity (op : Operator) : Nat :=
  match op.fixity with
  | .before | .after => 1
  | .between => 2
  | .opening | .closing => 0

/-- Whether the operator is a parenthesis. -/
def isParen (op : Operator) : Bool :=
  match op.fixity with
  | .opening | .closing => true
  | _ => false

/-- Whether the operator is counted on to make fractions out of integers. -/
def producesFractions : Operator → Bool
  | divide | sqrt => true
  | _ => false

/-- **What the operator does to its operands.** -/
def action {α : Type} [Scalar α] : Operator → Action α
  | add => .binary fun a b => some (a + b)
  | subtract => .binary fun a b => some (a - b)
  | multiply => .binary fun a b => some (a * b)
  | divide => .binary Operation.divide?
  | modulo => .binary Operation.modulo?
  | power => .binary Operation.power?
  | concat => .binary Operation.concat?
  | sqrt => .unary Operation.root?
  | negate => .unary fun a => some (-a)
  | log => .unary Operation.logarithm?
  | factorial => .unary Figures.factorial?
  | square => .unary fun a => some (a * a)
  | triangle => .unary Figures.triangular?
  | rectangle => .unary Figures.rectangular?
  | openParen | closeParen => .grouping

/-- The cards offered as a reward of each rarity. -/
def rewardPool : OperatorRarity → List Operator
  | .common => [add, subtract, multiply]
  | .uncommon => [divide, modulo, negate, openParen, closeParen, triangle, rectangle]
  | .rare => [power, sqrt, log, square]
  | .legendary => [factorial]
  | .exotic => [concat]

end Operator

end Arithmancy
