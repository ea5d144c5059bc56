import Arithmancy.Expression.Fault
import Arithmancy.Expression.Token

/-!
# The grammar of expressions

An expression is a chain of terms joined by operators that stand between them; a
term is an atom with operators before and after it; an atom is a number or a whole
expression in parentheses. One scan from left to right decides it: at each point
either a value is due or it is not, and a count says how many groups are open. The
scan stops at the first token that cannot stand where it stands.
-/

namespace Arithmancy

/-- Where a scan stands. -/
structure Cursor where
  /-- Whether a value is due. -/
  expectValue : Bool
  /-- How many groups are open. -/
  depth : Nat
deriving DecidableEq, Repr

namespace Cursor

variable {α : Type}

/-- Where every scan starts: a value is due and no group is open. -/
def start : Cursor := ⟨true, 0⟩

/-- **One step of the scan** over the token at a position. -/
def step (c : Cursor) (position : Nat) : Token α → Except (ExpressionFault α) Cursor
  | .number .. =>
    if c.expectValue then .ok { c with expectValue := false }
    else .error (.unexpectedNumber position)
  | .operator card =>
    match card.op.fixity with
    | .opening =>
      if c.expectValue then .ok { c with depth := c.depth + 1 }
      else .error (.unexpectedOpenParen position)
    | .closing =>
      if c.expectValue then .error (.unexpectedCloseParen position)
      else if c.depth = 0 then .error (.unmatchedCloseParen position)
      else .ok { c with depth := c.depth - 1 }
    | .before =>
      if c.expectValue then .ok c else .error (.unexpectedPrefix card.op position)
    | .after =>
      if c.expectValue then .error (.unexpectedPostfix card.op position) else .ok c
    | .between =>
      if c.expectValue then .error (.unexpectedOperator card.op position)
      else .ok { c with expectValue := true }

/-- Scans tokens from a position on. -/
def scan (c : Cursor) (position : Nat) : Expression α → Except (ExpressionFault α) Cursor
  | [] => .ok c
  | t :: ts =>
    match c.step position t with
    | .ok c => scan c (position + 1) ts
    | .error fault => .error fault

/-- Whether an expression may end here. -/
def finish (c : Cursor) : Except (ExpressionFault α) Unit :=
  if c.expectValue then .error .trailingOperator
  else if c.depth = 0 then .ok ()
  else .error (.unclosedParen c.depth)

end Cursor

namespace Expression

variable {α : Type}

/-- **Checks the grammar of an expression** and reports its first violation. -/
def validate (e : Expression α) : Except (ExpressionFault α) Unit :=
  match e with
  | [] => .error .empty
  | _ =>
    match Cursor.start.scan 1 e with
    | .ok c => c.finish
    | .error fault => .error fault

end Expression

end Arithmancy
