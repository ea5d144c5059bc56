import Arithmancy.Expression.Grammar

/-!
# Postfix order

An expression is evaluated in postfix order, in which every operator follows its
operands and no parenthesis is needed. `Expression.toPostfix` brings any sequence
of tokens into that order with a stack of waiting operators, and
`Expression.evaluatePostfix` evaluates a sequence in that order with a stack of
values.

An expression is worth what its postfix order evaluates to, rounded to three decimal
places, provided that its grammar is right (`Expression.evaluate`). An expression with a
fault of grammar is never evaluated.
-/

namespace Arithmancy

/-! ## Into postfix order -/

/-- Tokens on their way into postfix order. -/
structure Yard (α : Type) where
  /-- The tokens already in order. -/
  output : Expression α
  /-- The operators that wait for their right end, the latest first. -/
  stack : List Card
deriving DecidableEq, Repr

namespace Yard

variable {α : Type}

/-- Nothing is in order and nothing waits. -/
def start : Yard α := ⟨[], []⟩

/-- Whether a card opens a group. -/
def opens (c : Card) : Bool := c.op.fixity == .opening

/-- Whether a waiting operator has its right end before an incoming operator that
stands between operands: it binds more tightly, or as tightly while the incoming
one groups to the left. An open group ends nowhere but at its close. -/
def yieldsTo (incoming waiting : Card) : Bool :=
  !opens waiting &&
    (incoming.op.precedence < waiting.op.precedence ||
      (waiting.op.precedence == incoming.op.precedence && !incoming.op.groupsRight))

/-- **Takes in one token.** -/
def step (y : Yard α) : Token α → Yard α
  | .number value die => { y with output := y.output ++ [.number value die] }
  | .operator card =>
    match card.op.fixity with
    | .opening | .before => { y with stack := card :: y.stack }
    | .after => { y with output := y.output ++ [.operator card] }
    | .closing =>
      { output := y.output ++ (y.stack.takeWhile (!opens ·)).map .operator
        stack := (y.stack.dropWhile (!opens ·)).drop 1 }
    | .between =>
      { output := y.output ++ (y.stack.takeWhile (yieldsTo card)).map .operator
        stack := card :: y.stack.dropWhile (yieldsTo card) }

/-- The tokens in order once the input has ended: every waiting operator has its
right end there, and groups that were never closed are dropped. -/
def finish (y : Yard α) : Expression α :=
  y.output ++ (y.stack.filter (!opens ·)).map .operator

end Yard

namespace Expression

variable {α : Type}

/-- **The tokens in postfix order.** -/
def toPostfix (e : Expression α) : Expression α :=
  (e.foldl Yard.step Yard.start).finish

/-! ## Evaluation in postfix order -/

variable [Scalar α]

/-- A value of an operation, if it has a finite one. -/
def settled (value : Option α) : Option α := value.filter Scalar.isFinite

/-- **Evaluates one token** over a stack of values, the latest first. The later of
two operands is the right one. -/
def evaluateStep (stack : List α) : Token α → Except (ExpressionFault α) (List α)
  | .number value _ => .ok (value :: stack)
  | .operator card =>
    match (card.op.action : Action α) with
    | .unary f =>
      match stack with
      | a :: rest =>
        match settled (f a) with
        | some value => .ok (value :: rest)
        | none => .error (.invalidUnary card.op a)
      | [] => .error .notEnoughOperands
    | .binary f =>
      match stack with
      | b :: a :: rest =>
        match settled (f a b) with
        | some value => .ok (value :: rest)
        | none => .error (.invalidBinary a card.op b)
      | _ => .error .notEnoughOperands
    | .grouping => .error .invalidStructure

/-- Evaluates tokens over a stack of values. -/
def evaluateTokens : List α → Expression α → Except (ExpressionFault α) (List α)
  | stack, [] => .ok stack
  | stack, t :: ts =>
    match evaluateStep stack t with
    | .ok stack => evaluateTokens stack ts
    | .error fault => .error fault

/-- **The value of tokens in postfix order**, which must leave exactly one. -/
def evaluatePostfix (e : Expression α) : Except (ExpressionFault α) α :=
  match evaluateTokens [] e with
  | .ok [value] => .ok value
  | .ok _ => .error .invalidStructure
  | .error fault => .error fault

end Expression

/-! ## The value of an expression -/

/-- The decimal places kept in a result. -/
def resultPrecision : Int := 3

/-- What the evaluation of an expression finds. -/
structure Evaluation (α : Type) where
  /-- The value, rounded. -/
  result : α
  /-- How many numbers were used. -/
  diceUsed : Nat
  /-- How many operators were used, parentheses included. -/
  operatorsUsed : Nat
deriving DecidableEq, Repr

/-- **Evaluates an expression.** -/
def Expression.evaluate {α : Type} [Scalar α] (e : Expression α) :
    Except (ExpressionFault α) (Evaluation α) := do
  e.validate
  let raw ← evaluatePostfix e.toPostfix
  return {
    result := Figures.roundTo raw resultPrecision
    diceUsed := e.countNumbers
    operatorsUsed := e.countOperators }

end Arithmancy
