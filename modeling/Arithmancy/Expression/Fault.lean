import Arithmancy.Expression.Operator
import Arithmancy.Fault

/-!
# What can be wrong with an expression

The scan of the grammar reports the first token that cannot stand where it stands,
or what is missing at the end. The arithmetic reports the first operation without
a finite value, with its operands. Positions count from one.
-/

namespace Arithmancy

/-- **Why an expression has no value.** -/
inductive ExpressionFault (α : Type) where
  /-- There is no token at all. -/
  | empty
  /-- A number follows a value. -/
  | unexpectedNumber (position : Nat)
  /-- A group opens after a value. -/
  | unexpectedOpenParen (position : Nat)
  /-- A group closes where a value is due. -/
  | unexpectedCloseParen (position : Nat)
  /-- A group closes that was never opened. -/
  | unmatchedCloseParen (position : Nat)
  /-- An operator that precedes its operand follows a value. -/
  | unexpectedPrefix (op : Operator) (position : Nat)
  /-- An operator that follows its operand stands where a value is due. -/
  | unexpectedPostfix (op : Operator) (position : Nat)
  /-- An operator between two operands stands where a value is due. -/
  | unexpectedOperator (op : Operator) (position : Nat)
  /-- The expression ends where a value is due. -/
  | trailingOperator
  /-- Some groups are not closed. -/
  | unclosedParen (missing : Nat)
  /-- An operation lacks operands. -/
  | notEnoughOperands
  /-- An operation on one operand has no finite value. -/
  | invalidUnary (op : Operator) (operand : α)
  /-- An operation on two operands has no finite value. -/
  | invalidBinary (left : α) (op : Operator) (right : α)
  /-- The operations do not combine to one value. -/
  | invalidStructure
deriving DecidableEq, Repr

namespace ExpressionFault

variable {α : Type}

/-- Whether the fault is one of grammar, found before any arithmetic. -/
def isGrammar : ExpressionFault α → Bool
  | notEnoughOperands | invalidUnary .. | invalidBinary .. | invalidStructure => false
  | _ => true

/-- The code of each cause. -/
def code : ExpressionFault α → String
  | empty => "EXPR_EMPTY"
  | unexpectedNumber _ => "EXPR_UNEXPECTED_NUMBER"
  | unexpectedOpenParen _ => "EXPR_UNEXPECTED_OPEN_PAREN"
  | unexpectedCloseParen _ => "EXPR_UNEXPECTED_CLOSE_PAREN"
  | unmatchedCloseParen _ => "EXPR_UNMATCHED_CLOSE_PAREN"
  | unexpectedPrefix .. => "EXPR_UNEXPECTED_PREFIX"
  | unexpectedPostfix .. => "EXPR_UNEXPECTED_POSTFIX"
  | unexpectedOperator .. => "EXPR_UNEXPECTED_OPERATOR"
  | trailingOperator => "EXPR_TRAILING_OPERATOR"
  | unclosedParen _ => "EXPR_UNCLOSED_PAREN"
  | notEnoughOperands => "EXPR_NOT_ENOUGH_OPERANDS"
  | invalidUnary .. => "EXPR_INVALID_UNARY"
  | invalidBinary .. => "EXPR_INVALID_BINARY"
  | invalidStructure => "EXPR_INVALID_STRUCTURE"

/-- The word for some number of parentheses. -/
def parenNoun (n : Nat) : String := if n = 1 then "parenthesis" else "parentheses"

/-- The message of each cause. -/
def message [Scalar α] : ExpressionFault α → String
  | empty => "Expression is empty"
  | unexpectedNumber p => s!"Unexpected number at position {p}"
  | unexpectedOpenParen p => s!"Unexpected ( at position {p}"
  | unexpectedCloseParen p => s!"Unexpected ) at position {p}"
  | unmatchedCloseParen p => s!"Unmatched ) at position {p}"
  | unexpectedPrefix op p => s!"Unexpected prefix operator {op.symbol} at position {p}"
  | unexpectedPostfix op p => s!"Unexpected postfix operator {op.symbol} at position {p}"
  | unexpectedOperator op p => s!"Unexpected operator {op.symbol} at position {p}"
  | trailingOperator => "Expression ends with an operator"
  | unclosedParen n => s!"Unmatched ( with {n} missing closing {parenNoun n}"
  | notEnoughOperands => "Not enough operands"
  | invalidUnary op a => s!"Invalid operation: {op.symbol}({Scalar.text a})"
  | invalidBinary a op b =>
    s!"Invalid operation: {Scalar.text a} {op.symbol} {Scalar.text b}"
  | invalidStructure => "Invalid expression structure"

instance [Scalar α] : Fault (ExpressionFault α) where
  severity _ := .recoverable
  code := code
  message := message

end ExpressionFault

end Arithmancy
