import Arithmancy.Expression.Postfix

/-!
# Where tokens come from

A token remembers the die or the slot of the hand it was placed from. `Token.bare`
forgets it. Every stage of the evaluation does to bare tokens what it does to the
tokens they come from, so expressions that differ in nothing but their origin are
evaluated alike (`Expression.evaluate_eq_of_bare_eq`).
-/

namespace Arithmancy

variable {α : Type}

/-! ## Forgetting the origin -/

/-- The card without its slot. -/
def Card.bare (c : Card) : Card := { c with slot := none }

/-- **The token without its origin.** -/
def Token.bare : Token α → Token α
  | .number value _ => .number value none
  | .operator card => .operator card.bare

/-- The expression without the origin of its tokens. -/
def Expression.bare (e : Expression α) : Expression α := e.map Token.bare

/-- Tokens on their way into postfix order, without their origin. -/
def Yard.bare (y : Yard α) : Yard α := ⟨y.output.map Token.bare, y.stack.map Card.bare⟩

@[simp] theorem Card.op_bare (c : Card) : c.bare.op = c.op := rfl

theorem Token.isNumber_bare (t : Token α) : t.bare.isNumber = t.isNumber := by
  cases t <;> rfl

theorem Token.isOperator_bare (t : Token α) : t.bare.isOperator = t.isOperator := by
  cases t <;> rfl

theorem Token.operator_bare (cards : List Card) :
    (cards.map Token.operator : Expression α).map Token.bare
      = (cards.map Card.bare).map Token.operator := by
  rw [List.map_map, List.map_map]
  rfl

/-! ## The scan -/

theorem Cursor.step_bare (c : Cursor) (n : Nat) (t : Token α) : c.step n t.bare = c.step n t := by
  cases t <;> rfl

theorem Cursor.scan_bare (c : Cursor) (n : Nat) (e : Expression α) :
    c.scan n e.bare = c.scan n e := by
  induction e generalizing c n with
  | nil => rfl
  | cons t e ih =>
    show c.scan n (t.bare :: Expression.bare e) = c.scan n (t :: e)
    rw [scan, scan, step_bare]
    cases c.step n t with
    | error fault => rfl
    | ok c => exact ih c (n + 1)

theorem Expression.validate_bare (e : Expression α) : e.bare.validate = e.validate := by
  cases e with
  | nil => rfl
  | cons t e =>
    have hscan := Cursor.scan_bare .start 1 (t :: e)
    unfold validate
    rw [hscan]
    rfl

/-! ## Postfix order -/

theorem Yard.step_bare (y : Yard α) (t : Token α) : y.bare.step t.bare = (y.step t).bare := by
  cases t with
  | number value die => simp [step, bare, Token.bare]
  | operator card =>
    simp only [step, bare, Token.bare, Card.op_bare]
    cases card.op.fixity with
    | opening => rfl
    | before => rfl
    | after => simp [Token.bare]
    | closing =>
      simp only [List.takeWhile_map, List.dropWhile_map, List.map_append, Token.operator_bare,
        List.map_drop]
      rfl
    | between =>
      simp only [List.takeWhile_map, List.dropWhile_map, List.map_append, Token.operator_bare,
        List.map_cons]
      rfl

theorem Yard.foldl_step_bare (y : Yard α) (e : Expression α) :
    e.bare.foldl step y.bare = (e.foldl step y).bare := by
  induction e generalizing y with
  | nil => rfl
  | cons t e ih =>
    rw [Expression.bare, List.map_cons, List.foldl_cons, List.foldl_cons, step_bare]
    exact ih (y.step t)

theorem Expression.toPostfix_bare (e : Expression α) : e.bare.toPostfix = e.toPostfix.bare := by
  rw [toPostfix, show Yard.start = (Yard.start : Yard α).bare from rfl, Yard.foldl_step_bare,
    Yard.finish, toPostfix, Yard.finish, bare, List.map_append, Token.operator_bare, Yard.bare,
    List.filter_map]
  rfl

/-! ## Values -/

variable [Scalar α]

theorem Expression.evaluateTokens_bare (stack : List α) (e : Expression α) :
    evaluateTokens stack e.bare = evaluateTokens stack e := by
  induction e generalizing stack with
  | nil => rfl
  | cons t e ih =>
    have hstep : evaluateStep stack t.bare = evaluateStep stack t := by cases t <;> rfl
    rw [bare, List.map_cons, evaluateTokens, hstep, evaluateTokens]
    cases evaluateStep stack t with
    | error fault => rfl
    | ok stack => exact ih stack

theorem Expression.evaluatePostfix_bare (e : Expression α) :
    evaluatePostfix e.bare = evaluatePostfix e := by
  rw [evaluatePostfix, evaluateTokens_bare, evaluatePostfix]

theorem Expression.evaluate_bare (e : Expression α) : e.bare.evaluate = e.evaluate := by
  have hnumbers : e.bare.countNumbers = e.countNumbers := by
    rw [countNumbers, bare, List.countP_map]
    exact List.countP_congr fun t _ => by rw [Function.comp_apply, Token.isNumber_bare]
  have hoperators : e.bare.countOperators = e.countOperators := by
    rw [countOperators, bare, List.countP_map]
    exact List.countP_congr fun t _ => by rw [Function.comp_apply, Token.isOperator_bare]
  rw [evaluate, validate_bare, toPostfix_bare, evaluatePostfix_bare, hnumbers, hoperators, evaluate]

/-- **Expressions that differ in nothing but the origin of their tokens** are evaluated
alike. -/
theorem Expression.evaluate_eq_of_bare_eq {e e' : Expression α} (h : e.bare = e'.bare) :
    e.evaluate = e'.evaluate := by
  rw [← e.evaluate_bare, h, e'.evaluate_bare]

end Arithmancy
