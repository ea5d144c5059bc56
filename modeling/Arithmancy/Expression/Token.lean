import Arithmancy.Dice
import Arithmancy.Expression.Operator

/-!
# Tokens

An expression under construction is a list of tokens: numbers, each placed from a
die on the tray, and operators, each placed from a card in the hand. A token
remembers where it was placed from. That origin matters to what may be placed and
never to what an expression is worth.
-/

namespace Arithmancy

/-- An operator together with the slot of the hand its card was taken from. -/
structure Card where
  /-- The operator on the card. -/
  op : Operator
  /-- The slot of the hand, if the card came from there. -/
  slot : Option Nat
deriving DecidableEq, Repr

/-- **One unit of an expression.** -/
inductive Token (α : Type) where
  /-- A number, with the die that shows it, if there is one. -/
  | number (value : α) (die : Option DieId)
  /-- An operator card. -/
  | operator (card : Card)
deriving DecidableEq, Repr

namespace Token

variable {α : Type}

/-- The token for a die that shows a value. -/
def ofDie [Scalar α] (value : Nat) (id : DieId) : Token α := .number (Scalar.ofNat value) id

/-- The token for the card in a slot of the hand. -/
def ofCard (op : Operator) (slot : Nat) : Token α := .operator ⟨op, slot⟩

/-- Whether the token is a number. -/
def isNumber : Token α → Bool
  | number .. => true
  | operator _ => false

/-- Whether the token is an operator. -/
def isOperator : Token α → Bool
  | number .. => false
  | operator _ => true

/-- The die a token was placed from. -/
def die? : Token α → Option DieId
  | number _ die => die
  | operator _ => none

/-- The slot of the hand a token was placed from. -/
def slot? : Token α → Option Nat
  | number .. => none
  | operator card => card.slot

/-- The number of a token. -/
def value? : Token α → Option α
  | number value _ => some value
  | operator _ => none

/-- The text of a token: its number or its sign. -/
def text [Scalar α] : Token α → String
  | number value _ => Scalar.text value
  | operator card => card.op.symbol

end Token

/-- An expression under construction. -/
abbrev Expression (α : Type) := List (Token α)

namespace Expression

variable {α : Type}

/-- How many numbers an expression uses. -/
def countNumbers (e : Expression α) : Nat := e.countP Token.isNumber

/-- How many operators an expression uses, parentheses included. -/
def countOperators (e : Expression α) : Nat := e.countP Token.isOperator

/-- The numbers of an expression, in order. -/
def numbers (e : Expression α) : List α := e.filterMap Token.value?

/-- The text of an expression, its tokens separated by spaces. -/
def text [Scalar α] (e : Expression α) : String := " ".intercalate (e.map Token.text)

end Expression

end Arithmancy
