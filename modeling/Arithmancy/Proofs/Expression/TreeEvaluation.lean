import Mathlib.Logic.ExistsUnique
import Arithmancy.Proofs.Expression.FaultPosition
import Arithmancy.Proofs.Expression.Origin

/-!
# Evaluation is the value of the tree

An expression is evaluated on two stacks, one that puts its tokens into postfix order
and one that holds values. Together they carry out the syntax tree of the expression:
carrying out the operations of a tree in their order leaves the value of the tree on the
stack, or stops with its fault (`evaluateTokens_postorder`).

Three things follow for expressions that pass the scan. The stack of values never runs
short; what may go wrong is the arithmetic, and the fault names the operation. Faults of
grammar come from the scan alone. And as a tree is worth the same whatever its tokens
were placed from, so is the expression.
-/

namespace Arithmancy

variable {α : Type}

/-! ## Operators and their operands -/

namespace Operator

variable [Scalar α]

/-- An operator before or after its operand takes one. -/
theorem action_unary {op : Operator} (h : op.fixity = .before ∨ op.fixity = .after) :
    ∃ f, (op.action : Action α) = .unary f := by
  cases op <;> simp [fixity] at h <;> exact ⟨_, rfl⟩

/-- An operator between its operands takes two. -/
theorem action_binary {op : Operator} (h : op.fixity = .between) :
    ∃ f, (op.action : Action α) = .binary f := by
  cases op <;> simp [fixity] at h <;> exact ⟨_, rfl⟩

/-- A parenthesis takes none. -/
theorem action_grouping {op : Operator} (h : op.fixity = .opening ∨ op.fixity = .closing) :
    (op.action : Action α) = .grouping := by
  cases op <;> simp [fixity] at h <;> rfl

end Operator

/-- **A fault of the arithmetic** names an operation and its operands. -/
def ExpressionFault.IsArithmetic (fault : ExpressionFault α) : Prop :=
  (∃ op a, fault = .invalidUnary op a) ∨ ∃ a op b, fault = .invalidBinary a op b

theorem ExpressionFault.IsArithmetic.isGrammar {fault : ExpressionFault α}
    (h : fault.IsArithmetic) : fault.isGrammar = false := by
  rcases h with ⟨op, a, rfl⟩ | ⟨a, op, b, rfl⟩ <;> rfl

/-! ## One operation -/

section

variable [Scalar α] {card : Card} {a b : α} {stack : List α} {rest : Expression α}

open SyntaxTree Expression

theorem evaluateStep_apply₁ (h : card.op.fixity = .before ∨ card.op.fixity = .after) :
    evaluateStep (a :: stack) (.operator card) = (apply₁ card.op a).map (· :: stack) := by
  obtain ⟨f, hf⟩ := Operator.action_unary (α := α) h
  rw [evaluateStep, apply₁, hf]
  simp only [settled]
  cases (f a).filter Scalar.isFinite <;> rfl

theorem evaluateStep_apply₂ (h : card.op.fixity = .between) :
    evaluateStep (b :: a :: stack) (.operator card)
      = (apply₂ a card.op b).map (· :: stack) := by
  obtain ⟨f, hf⟩ := Operator.action_binary (α := α) h
  rw [evaluateStep, apply₂, hf]
  simp only [settled]
  cases (f a b).filter Scalar.isFinite <;> rfl

theorem evaluateTokens_apply₁ (h : card.op.fixity = .before ∨ card.op.fixity = .after) :
    evaluateTokens (a :: stack) (.operator card :: rest)
      = apply₁ card.op a >>= fun value => evaluateTokens (value :: stack) rest := by
  rw [evaluateTokens, evaluateStep_apply₁ h]
  cases apply₁ card.op a <;> rfl

theorem evaluateTokens_apply₂ (h : card.op.fixity = .between) :
    evaluateTokens (b :: a :: stack) (.operator card :: rest)
      = apply₂ a card.op b >>= fun value => evaluateTokens (value :: stack) rest := by
  rw [evaluateTokens, evaluateStep_apply₂ h]
  cases apply₂ a card.op b <;> rfl

/-- What passes the check is finite. -/
theorem isFinite_of_filter {found : Option α} {fault : ExpressionFault α} {v : α}
    (h : (found.filter Scalar.isFinite).elim (.error fault) .ok = Except.ok v) :
    Scalar.isFinite v = true := by
  cases hval : found.filter Scalar.isFinite with
  | none =>
    rw [hval] at h
    cases h
  | some value =>
    rw [hval] at h
    obtain rfl := Except.ok.inj h
    exact (Option.filter_eq_some_iff.mp hval).2

/-- **An operation has finite values only**, on one operand. -/
theorem isFinite_of_apply₁ {op : Operator} {v : α} (h : apply₁ op a = .ok v) :
    Scalar.isFinite v = true := by
  rw [apply₁] at h
  split at h
  · exact isFinite_of_filter h
  · cases h

/-- The same on two operands. -/
theorem isFinite_of_apply₂ {op : Operator} {v : α} (h : apply₂ a op b = .ok v) :
    Scalar.isFinite v = true := by
  rw [apply₂] at h
  split at h
  · exact isFinite_of_filter h
  · cases h

theorem exists_of_map_eq_ok {ε β γ : Type} {x : Except ε β} {f : β → γ} {c : γ}
    (h : x.map f = .ok c) : ∃ b, x = .ok b ∧ f b = c := by
  cases x with
  | error fault => cases h
  | ok b => exact ⟨b, rfl, Except.ok.inj h⟩

/-- **What one token does to the stack**: a number comes on top, and an operator replaces its
operands there by the value it has for them. A parenthesis is refused. -/
theorem evaluateStep_cases {token : Token α} {stack' : List α}
    (h : evaluateStep stack token = .ok stack') :
    (∃ v die, token = .number v die ∧ stack' = v :: stack)
      ∨ (∃ card a below v, token = .operator card
        ∧ (card.op.fixity = .before ∨ card.op.fixity = .after) ∧ stack = a :: below
        ∧ apply₁ card.op a = .ok v ∧ stack' = v :: below)
      ∨ ∃ card a b below v, token = .operator card ∧ card.op.fixity = .between
        ∧ stack = b :: a :: below ∧ apply₂ a card.op b = .ok v ∧ stack' = v :: below := by
  cases token with
  | number v die => exact .inl ⟨v, die, rfl, (Except.ok.inj h).symm⟩
  | operator card =>
    have hunary (hfix : card.op.fixity = .before ∨ card.op.fixity = .after) :
        ∃ a below v, stack = a :: below ∧ apply₁ card.op a = .ok v ∧ stack' = v :: below := by
      obtain ⟨f, hf⟩ := Operator.action_unary (α := α) hfix
      match stack with
      | [] =>
        rw [evaluateStep, hf] at h
        cases h
      | a :: below =>
        rw [evaluateStep_apply₁ hfix] at h
        obtain ⟨v, hv, hstack⟩ := exists_of_map_eq_ok h
        exact ⟨a, below, v, rfl, hv, hstack.symm⟩
    cases hfix : card.op.fixity with
    | opening | closing =>
      rw [evaluateStep, Operator.action_grouping (by simp [hfix])] at h
      cases h
    | before =>
      obtain ⟨a, below, v, hstep⟩ := hunary (.inl hfix)
      exact .inr (.inl ⟨card, a, below, v, rfl, .inl hfix, hstep⟩)
    | after =>
      obtain ⟨a, below, v, hstep⟩ := hunary (.inr hfix)
      exact .inr (.inl ⟨card, a, below, v, rfl, .inr hfix, hstep⟩)
    | between =>
      obtain ⟨f, hf⟩ := Operator.action_binary (α := α) hfix
      match stack with
      | [] | [_] =>
        rw [evaluateStep, hf] at h
        cases h
      | b :: a :: below =>
        rw [evaluateStep_apply₂ hfix] at h
        obtain ⟨v, hv, hstack⟩ := exists_of_map_eq_ok h
        exact .inr (.inr ⟨card, a, b, below, v, rfl, hfix, rfl, hv, hstack.symm⟩)

/-- The first token is evaluated, and then the others. -/
theorem exists_of_evaluateTokens_cons {token : Token α} {stack' : List α}
    (h : evaluateTokens stack (token :: rest) = .ok stack') :
    ∃ evaluated, evaluateStep stack token = .ok evaluated
      ∧ evaluateTokens evaluated rest = .ok stack' := by
  rw [evaluateTokens] at h
  split at h
  · next evaluated hstep => exact ⟨evaluated, hstep, h⟩
  · cases h

/-- A value is the only one left on the stack. -/
theorem evaluateTokens_of_evaluatePostfix {p : Expression α} {v : α}
    (h : evaluatePostfix p = .ok v) : evaluateTokens [] p = .ok [v] := by
  rw [evaluatePostfix] at h
  split at h
  · next hvalue => rw [hvalue, Except.ok.inj h]
  · cases h
  · cases h

/-- An operation on one operand fails with a fault that names it. -/
theorem eq_invalidUnary_of_apply₁ {op : Operator} (h : op.fixity = .before ∨ op.fixity = .after)
    {fault : ExpressionFault α} (hf : apply₁ op a = .error fault) : fault = .invalidUnary op a := by
  obtain ⟨f, hact⟩ := Operator.action_unary (α := α) h
  rw [apply₁, hact] at hf
  cases hval : (f a).filter Scalar.isFinite with
  | none =>
    simp only [hval, Option.elim] at hf
    exact (Except.error.inj hf).symm
  | some value => simp [hval] at hf

/-- An operation on two operands fails with a fault that names it. -/
theorem eq_invalidBinary_of_apply₂ {op : Operator} (h : op.fixity = .between)
    {fault : ExpressionFault α} (hf : apply₂ a op b = .error fault) :
    fault = .invalidBinary a op b := by
  obtain ⟨f, hact⟩ := Operator.action_binary (α := α) h
  rw [apply₂, hact] at hf
  cases hval : (f a b).filter Scalar.isFinite with
  | none =>
    simp only [hval, Option.elim] at hf
    exact (Except.error.inj hf).symm
  | some value => simp [hval] at hf

end

/-! ## A whole tree -/

section

variable [Scalar α]

open SyntaxTree Expression

/-- **Carrying out the operations of a tree** whose operators stand in their places puts its value
on the stack, or stops with its fault. -/
theorem evaluateTokens_postorder {t : SyntaxTree α} (h : t.Placed) (stack : List α)
    (rest : Expression α) :
    evaluateTokens stack (t.postorder ++ rest)
      = t.value >>= fun value => evaluateTokens (value :: stack) rest := by
  induction t generalizing stack rest with
  | number value die => rfl
  | group opening inner closing ih => exact ih h stack rest
  | before card operand ih =>
    rw [postorder, List.append_assoc, ih h.2, SyntaxTree.value, bind_assoc]
    exact bind_congr fun a => evaluateTokens_apply₁ (.inl h.1)
  | after operand card ih =>
    rw [postorder, List.append_assoc, ih h.2, SyntaxTree.value, bind_assoc]
    exact bind_congr fun a => evaluateTokens_apply₁ (.inr h.1)
  | between left card right ihl ihr =>
    obtain ⟨hfix, hleft, hright⟩ := h
    rw [postorder, List.append_assoc, List.append_assoc, ihl hleft, SyntaxTree.value, bind_assoc]
    refine bind_congr fun a => ?_
    rw [ihr hright, bind_assoc]
    exact bind_congr fun b => evaluateTokens_apply₂ hfix

/-- A tree whose operators stand in their places has a value unless its arithmetic fails. -/
theorem SyntaxTree.Placed.isArithmetic {t : SyntaxTree α} (h : t.Placed)
    {fault : ExpressionFault α} (hf : t.value = .error fault) : fault.IsArithmetic := by
  induction t with
  | number value die => cases hf
  | group opening inner closing ih => exact ih h hf
  | before card operand ih =>
    rw [SyntaxTree.value] at hf
    cases hval : operand.value with
    | error fault' => exact ih h.2 (by rw [hval] at hf ⊢; exact hf)
    | ok a =>
      rw [hval] at hf
      exact .inl ⟨card.op, a, eq_invalidUnary_of_apply₁ (.inl h.1) hf⟩
  | after operand card ih =>
    rw [SyntaxTree.value] at hf
    cases hval : operand.value with
    | error fault' => exact ih h.2 (by rw [hval] at hf ⊢; exact hf)
    | ok a =>
      rw [hval] at hf
      exact .inl ⟨card.op, a, eq_invalidUnary_of_apply₁ (.inr h.1) hf⟩
  | between left card right ihl ihr =>
    obtain ⟨hfix, hplacedl, hplacedr⟩ := h
    rw [SyntaxTree.value] at hf
    cases hleft : left.value with
    | error fault' => exact ihl hplacedl (by rw [hleft] at hf ⊢; exact hf)
    | ok a =>
      cases hright : right.value with
      | error fault' => exact ihr hplacedr (by rw [hleft, hright] at hf; rw [hright]; exact hf)
      | ok b =>
        rw [hleft, hright] at hf
        exact .inr ⟨a, card.op, b, eq_invalidBinary_of_apply₂ hfix hf⟩

/-- An arranged tree has a value unless its arithmetic fails. -/
theorem SyntaxTree.Arranged.isArithmetic {t : SyntaxTree α} (h : t.Arranged)
    {fault : ExpressionFault α} (hf : t.value = .error fault) : fault.IsArithmetic :=
  h.placed.isArithmetic hf

/-- The postfix order of a tree evaluates to the value of the tree. -/
theorem evaluatePostfix_postorder {t : SyntaxTree α} (h : t.Placed) :
    evaluatePostfix t.postorder = t.value := by
  have heval := evaluateTokens_postorder h [] []
  rw [List.append_nil] at heval
  rw [evaluatePostfix, heval]
  cases t.value <;> rfl

/-- What passes the scan evaluates to the value of its reading, rounded, and to the number of its
leaves and of its operators. -/
theorem SyntaxTree.Reads.evaluate {t : SyntaxTree α} {e : Expression α} (h : t.Reads e) :
    e.evaluate = t.value.map fun raw =>
      ⟨Figures.roundTo raw resultPrecision, t.leafCount, t.operatorCount⟩ := by
  obtain ⟨t', ht', hpostfix⟩ := exists_reads h.validate
  obtain rfl := h.unique ht'
  rw [← t.countNumbers_tokens, ← t.countOperators_tokens, h.tokens_eq, Expression.evaluate,
    h.validate, hpostfix, evaluatePostfix_postorder h.arranged.placed]
  cases t.value <;> rfl

end

/-! ## Faults of grammar -/

theorem ExpressionFault.isGrammar_of_position? {fault : ExpressionFault α} {p : Nat}
    (h : fault.position? = some p) : fault.isGrammar = true := by
  cases fault <;> first | rfl | cases h

theorem ExpressionFault.Unfinished.isGrammar {fault : ExpressionFault α} (h : fault.Unfinished) :
    fault.isGrammar = true := by
  obtain rfl | rfl | ⟨k, rfl⟩ := h <;> rfl

/-- **What the scan reports is a fault of grammar.** -/
theorem Expression.isGrammar_of_validate {e : Expression α} {fault : ExpressionFault α}
    (h : e.validate = .error fault) : fault.isGrammar = true := by
  rcases scan_of_validate_eq_error h with hscan | ⟨-, hend⟩
  · obtain ⟨i, hposition, -⟩ := Cursor.exists_of_scan_eq_error hscan
    exact ExpressionFault.isGrammar_of_position? hposition
  · exact hend.isGrammar

/-! ## The evaluation of an expression -/

/-- **An expression is worth what its syntax tree is worth.** An expression passes the
scan exactly if it is written down by one arranged tree, and that tree is unique. It is
evaluated to the value of the tree, rounded to three decimal places, together with the
number of the leaves of the tree and the number of its operators, two for each pair of
parentheses; the only other end is the fault of the first operation without a finite
value. Faults of grammar are those of the scan, and the origin of the tokens does not
matter. -/
theorem Expression.evaluate_eq_tree_value [Scalar α] (e : Expression α) :
    (e.validate = .ok () ↔ ∃! t : SyntaxTree α, t.Reads e)
      ∧ (∀ t : SyntaxTree α, t.Reads e → e.evaluate = t.value.map fun raw =>
          ⟨Figures.roundTo raw 3, t.leafCount, t.operatorCount⟩)
      ∧ (e.validate = .ok () → ∀ fault, e.evaluate = .error fault → fault.IsArithmetic)
      ∧ (∀ fault, e.validate = .error fault ↔
          e.evaluate = .error fault ∧ fault.isGrammar = true)
      ∧ ∀ e' : Expression α, e'.bare = e.bare → e'.evaluate = e.evaluate := by
  have harithmetic : ∀ t : SyntaxTree α, t.Reads e → ∀ fault, e.evaluate = .error fault →
      fault.IsArithmetic := by
    intro t ht fault hfault
    rw [ht.evaluate] at hfault
    cases hvalue : t.value with
    | ok raw => rw [hvalue] at hfault; cases hfault
    | error fault' =>
      rw [hvalue] at hfault
      obtain rfl : fault' = fault := Except.error.inj hfault
      exact ht.arranged.isArithmetic hvalue
  refine ⟨⟨fun h => ?_, fun ⟨t, ht, _⟩ => ht.validate⟩, fun t ht => ht.evaluate, fun h => ?_,
    fun fault => ⟨fun h => ?_, fun ⟨hfault, hgrammar⟩ => ?_⟩, fun e' h => evaluate_eq_of_bare_eq h⟩
  · obtain ⟨t, ht, -⟩ := exists_reads h
    exact ⟨t, ht, fun t' ht' => ht'.unique ht⟩
  · obtain ⟨t, ht, -⟩ := exists_reads h
    exact harithmetic t ht
  · refine ⟨?_, isGrammar_of_validate h⟩
    rw [evaluate, h]
    rfl
  · cases hvalidate : e.validate with
    | error fault' =>
      rw [evaluate, hvalidate] at hfault
      rw [← Except.error.inj hfault]
    | ok _ =>
      obtain ⟨t, ht, -⟩ := exists_reads hvalidate
      rw [(harithmetic t ht fault hfault).isGrammar] at hgrammar
      cases hgrammar

end Arithmancy
