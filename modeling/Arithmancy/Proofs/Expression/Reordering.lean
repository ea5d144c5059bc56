import Arithmancy.Expression.Postfix

/-!
# Nothing is lost on the way into postfix order

Tokens come into postfix order through a stack on which operators wait. They leave it in three
ways: an operator between operands makes those above it yield, a closing parenthesis empties its
group, and the end of the input empties the rest. Each of them could drop a token or repeat one,
and the input may be anything, with groups that were never opened or are never closed.

What the tokens would come to if the input ended (`Yard.finish`) is what is followed here. One more
token adds itself to that, unless it is a parenthesis, and beyond that changes nothing but the
order of operators (`Yard.finish_step`, `Yard.numbers_finish_step`). A closing parenthesis does not
even change the order, as the end of the input would have emptied its group in the same way
(`Yard.finish_step_closing`). So the tokens in postfix order are those of the input without its
parentheses, and the numbers among them are in their order (`Expression.toPostfix_rearranges`).
-/

namespace Arithmancy

variable {α : Type}

/-- Whether the token is a parenthesis. -/
def Token.isParen : Token α → Bool
  | number .. => false
  | operator card => card.op.isParen

/-- **The expression without its parentheses.** -/
def Expression.withoutParens (e : Expression α) : Expression α := e.filter fun t => !t.isParen

namespace Yard

open Expression

/-! ## The stack -/

/-- What yields does not open a group. -/
theorem opens_of_yieldsTo {incoming waiting : Card} (h : yieldsTo incoming waiting = true) :
    opens waiting = false := by
  rw [yieldsTo, Bool.and_eq_true, Bool.not_eq_true'] at h
  exact h.1

theorem filter_opens_cons {c : Card} (h : opens c = false) (stack : List Card) :
    (c :: stack).filter (!opens ·) = c :: stack.filter (!opens ·) :=
  List.filter_cons_of_pos (by rw [h]; rfl)

/-- **What leaves the stack early leaves it in the order of the end**, as long as no group is
opened by it. -/
theorem filter_takeWhile_append {p : Card → Bool} (hp : ∀ c, p c = true → opens c = false)
    (stack : List Card) :
    stack.takeWhile p ++ (stack.dropWhile p).filter (!opens ·) = stack.filter (!opens ·) := by
  induction stack with
  | nil => rfl
  | cons c stack ih =>
    cases hc : p c with
    | true =>
      rw [List.takeWhile_cons_of_pos hc, List.dropWhile_cons_of_pos hc, filter_opens_cons (hp c hc),
        List.cons_append, ih]
    | false =>
      have hc' : ¬p c = true := by rw [hc]; exact Bool.false_ne_true
      rw [List.takeWhile_cons_of_neg hc', List.dropWhile_cons_of_neg hc', List.nil_append]

/-- The parenthesis that opened a group is dropped at the end, too. -/
theorem filter_drop_dropWhile (stack : List Card) :
    ((stack.dropWhile (!opens ·)).drop 1).filter (!opens ·)
      = (stack.dropWhile (!opens ·)).filter (!opens ·) := by
  induction stack with
  | nil => rfl
  | cons c stack ih =>
    cases hopens : opens c with
    | true => simp [hopens]
    | false =>
      rw [List.dropWhile_cons_of_pos (by rw [hopens]; rfl)]
      exact ih

/-! ## One token -/

/-- **A closing parenthesis** changes nothing of what the tokens come to, whether its group was
opened or not. -/
theorem finish_step_closing {card : Card} (h : card.op.fixity = .closing) (y : Yard α) :
    (y.step (.operator card)).finish = y.finish := by
  have hstack := filter_takeWhile_append (p := (!opens ·))
    (fun c hc => Bool.not_eq_true' .. ▸ hc) y.stack
  rw [step, h]
  simp only [finish]
  rw [List.append_assoc, ← List.map_append, filter_drop_dropWhile, hstack]

theorem withoutParens_singleton (t : Token α) :
    withoutParens [t] = if t.isParen then [] else [t] := by
  cases h : t.isParen <;> simp [withoutParens, h]

/-- **One token** adds itself to what the tokens come to, unless it is a parenthesis. -/
theorem finish_step (y : Yard α) (t : Token α) :
    (y.step t).finish.Perm (y.finish ++ withoutParens [t]) := by
  cases t with
  | number value die =>
    show (y.output ++ [_] ++ _).Perm (y.output ++ _ ++ [_])
    rw [List.append_assoc, List.append_assoc]
    exact List.perm_append_comm.append_left y.output
  | operator card =>
    rw [withoutParens_singleton, Token.isParen, Operator.isParen]
    have hopens : opens card = (card.op.fixity == .opening) := rfl
    cases hfix : card.op.fixity with
    | opening =>
      rw [hfix] at hopens
      simp [step, finish, hfix, show opens card = true from hopens]
    | closing =>
      rw [finish_step_closing hfix, if_pos rfl, List.append_nil]
    | after =>
      simp only [step, finish, hfix, List.append_assoc]
      exact List.perm_append_comm.append_left y.output
    | before =>
      rw [hfix] at hopens
      simp only [step, finish, hfix, List.append_assoc]
      rw [filter_opens_cons hopens, List.map_cons]
      exact (List.perm_append_singleton _ _).symm.append_left y.output
    | between =>
      rw [hfix] at hopens
      simp only [step, finish, hfix, List.append_assoc]
      rw [filter_opens_cons hopens, List.map_cons, ← filter_takeWhile_append
        (p := yieldsTo card) (fun _ => opens_of_yieldsTo) y.stack, List.map_append]
      exact (List.perm_middle.trans (List.perm_append_singleton _ _).symm).append_left y.output

/-- Operators are no numbers. -/
theorem filter_isNumber_operators (cards : List Card) :
    (cards.map .operator : Expression α).filter Token.isNumber = [] :=
  List.filter_eq_nil_iff.mpr fun t ht => by
    obtain ⟨card, -, rfl⟩ := List.mem_map.mp ht
    exact Bool.false_ne_true

/-- **One token** leaves the numbers in their order. -/
theorem numbers_finish_step (y : Yard α) (t : Token α) :
    (y.step t).finish.filter Token.isNumber
      = y.finish.filter Token.isNumber ++ [t].filter Token.isNumber := by
  cases t with
  | number value die =>
    simp only [step, finish, List.filter_append, filter_isNumber_operators, List.append_nil]
  | operator card =>
    have hcard : [(.operator card : Token α)].filter Token.isNumber = [] := rfl
    cases hfix : card.op.fixity <;>
      simp only [step, finish, hfix, List.filter_append, filter_isNumber_operators, hcard,
        List.append_nil]

/-! ## All tokens -/

theorem finish_foldl_step (y : Yard α) (e : Expression α) :
    (e.foldl step y).finish.Perm (y.finish ++ withoutParens e) := by
  induction e generalizing y with
  | nil => exact (List.append_nil y.finish).symm ▸ .refl _
  | cons t e ih =>
    have hsplit : withoutParens (t :: e) = withoutParens [t] ++ withoutParens e := by
      rw [withoutParens, ← List.singleton_append, List.filter_append]
      rfl
    rw [List.foldl_cons, hsplit, ← List.append_assoc]
    exact (ih (y.step t)).trans ((y.finish_step t).append_right _)

theorem numbers_finish_foldl_step (y : Yard α) (e : Expression α) :
    (e.foldl step y).finish.filter Token.isNumber
      = y.finish.filter Token.isNumber ++ e.filter Token.isNumber := by
  induction e generalizing y with
  | nil => exact (List.append_nil _).symm
  | cons t e ih =>
    rw [List.foldl_cons, ih, numbers_finish_step, List.append_assoc, ← List.filter_append]
    rfl

/-- Closing parentheses change nothing, however many they are. -/
theorem finish_foldl_closing (y : Yard α) (slots : List (Option Nat)) :
    ((slots.map fun slot => Token.operator ⟨.closeParen, slot⟩).foldl step y).finish
      = y.finish := by
  induction slots generalizing y with
  | nil => rfl
  | cons slot slots ih => rw [List.map_cons, List.foldl_cons, ih, finish_step_closing rfl]

end Yard

namespace Expression

/-- The tokens in postfix order are those of the expression without its parentheses. -/
theorem toPostfix_perm (e : Expression α) : e.toPostfix.Perm e.withoutParens :=
  Yard.finish_foldl_step .start e

/-- **Bringing tokens into postfix order drops the parentheses and nothing else**, whatever the
tokens are: every other token comes out once for each time it goes in, with the die or the slot
that it was placed from, no token comes out besides, and the numbers keep their order. Closing
parentheses at the end make no difference, whichever slots of the hand they are from. -/
theorem toPostfix_rearranges (e : Expression α) :
    e.toPostfix.Perm (e.filter fun t => !t.isParen)
      ∧ (∀ t ∈ e.toPostfix, t.isParen = false)
      ∧ e.toPostfix.filter Token.isNumber = e.filter Token.isNumber
      ∧ ∀ slots : List (Option Nat),
        toPostfix (e ++ slots.map fun slot => .operator ⟨.closeParen, slot⟩) = e.toPostfix := by
  refine ⟨e.toPostfix_perm, fun t ht => ?_, Yard.numbers_finish_foldl_step .start e,
    fun slots => ?_⟩
  · have hkept := (List.mem_filter.mp (e.toPostfix_perm.mem_iff.mp ht)).2
    rwa [Bool.not_eq_true'] at hkept
  · rw [toPostfix, List.foldl_append, Yard.finish_foldl_closing, toPostfix]

end Expression

end Arithmancy
