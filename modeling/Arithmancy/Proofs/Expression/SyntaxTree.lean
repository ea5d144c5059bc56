import Arithmancy.Expression.Postfix

/-!
# Syntax trees

The grammar says which token may follow which. It does not say which operator
applies to what: `1 + 2 × 3` is a chain of three terms to the grammar, and a sum
whose right operand is a product to the player. That second reading is a **syntax
tree**, and this module gives trees a meaning of their own, apart from the stacks by
which expressions are evaluated.

A tree is read in three ways. `SyntaxTree.tokens` writes it down as the player would,
with every token where it stands; `SyntaxTree.postorder` lists its operations in the
order in which they are carried out; and `SyntaxTree.value` carries them out. The
numbers and operators of a tree are counted on the tree, by `SyntaxTree.leafCount` and
`SyntaxTree.operatorCount`.

Not every tree is the meaning of what it writes down: `SyntaxTree.Arranged` asks that
each operand binds at least as tightly as the operator that takes it, so that
`(1 + 2) × 3` needs its parentheses, and that operators of one level group to the
left – those of power to the right.
-/

namespace Arithmancy

/-- **A syntax tree**: which operator applies to what. Every token keeps its origin. -/
inductive SyntaxTree (α : Type) where
  /-- A number. -/
  | number (value : α) (die : Option DieId)
  /-- A tree in parentheses. -/
  | group (opening : Card) (inner : SyntaxTree α) (closing : Card)
  /-- An operator before its operand. -/
  | before (card : Card) (operand : SyntaxTree α)
  /-- An operator after its operand. -/
  | after (operand : SyntaxTree α) (card : Card)
  /-- An operator between its operands. -/
  | between (left : SyntaxTree α) (card : Card) (right : SyntaxTree α)
deriving DecidableEq, Repr

/-! ## The table of operators -/

namespace Operator

/-- The level of an operator between two operands: the higher it is, the more
tightly the operator binds. -/
def level : Operator → Nat
  | concat => 4
  | power => 3
  | multiply | divide | modulo => 2
  | _ => 1

/-- Whether a left operand that binds so tightly goes without parentheses. Operators
of one level group to the left, and power does not. -/
def FitsLeft (op : Operator) (binding : Nat) : Prop :=
  op.level < binding ∨ op.level = binding ∧ op ≠ .power

/-- Whether a right operand that binds so tightly goes without parentheses. Power
groups to the right, and nothing else does. -/
def FitsRight (op : Operator) (binding : Nat) : Prop :=
  op.level < binding ∨ op.level = binding ∧ op = .power

theorem FitsLeft.le {op : Operator} {b : Nat} (h : op.FitsLeft b) : op.level ≤ b := by
  rcases h with h | ⟨h, -⟩ <;> omega

theorem FitsLeft.mono {op : Operator} {b b' : Nat} (h : op.FitsLeft b) (hb : b ≤ b') :
    op.FitsLeft b' := by
  rcases h with h | ⟨h, hne⟩
  · exact .inl (by omega)
  · rcases Nat.eq_or_lt_of_le hb with rfl | hlt
    · exact .inr ⟨h, hne⟩
    · exact .inl (by omega)

theorem FitsRight.le {op : Operator} {b : Nat} (h : op.FitsRight b) : op.level ≤ b := by
  rcases h with h | ⟨h, -⟩ <;> omega

theorem FitsRight.mono {op : Operator} {b b' : Nat} (h : op.FitsRight b) (hb : b ≤ b') :
    op.FitsRight b' := by
  rcases h with h | ⟨h, heq⟩
  · exact .inl (by omega)
  · rcases Nat.eq_or_lt_of_le hb with rfl | hlt
    · exact .inr ⟨h, heq⟩
    · exact .inl (by omega)

theorem level_le_four (op : Operator) : op.level ≤ 4 := by
  cases op <;> decide

end Operator

namespace SyntaxTree

variable {α : Type}

/-! ## Writing a tree down -/

/-- **The tokens of a tree**, where the player puts them. -/
def tokens : SyntaxTree α → Expression α
  | number value die => [.number value die]
  | group opening inner closing => .operator opening :: (inner.tokens ++ [.operator closing])
  | before card operand => .operator card :: operand.tokens
  | after operand card => operand.tokens ++ [.operator card]
  | between left card right => left.tokens ++ .operator card :: right.tokens

/-- **The operations of a tree** in the order in which they are carried out, each
after its operands; parentheses have done their work. -/
def postorder : SyntaxTree α → Expression α
  | number value die => [.number value die]
  | group _ inner _ => inner.postorder
  | before card operand => operand.postorder ++ [.operator card]
  | after operand card => operand.postorder ++ [.operator card]
  | between left card right => left.postorder ++ right.postorder ++ [.operator card]

/-! ## How many tokens a tree has -/

/-- **How many numbers stand at the leaves of a tree.** -/
def leafCount : SyntaxTree α → Nat
  | number .. => 1
  | group _ inner _ => inner.leafCount
  | before _ operand | after operand _ => operand.leafCount
  | between left _ right => left.leafCount + right.leafCount

/-- **How many operators a tree has**: one for each operation and two for each pair of
parentheses. -/
def operatorCount : SyntaxTree α → Nat
  | number .. => 0
  | group _ inner _ => inner.operatorCount + 2
  | before _ operand | after operand _ => operand.operatorCount + 1
  | between left _ right => left.operatorCount + right.operatorCount + 1

/-- The numbers among the tokens of a tree are its leaves. -/
theorem countNumbers_tokens (t : SyntaxTree α) : t.tokens.countNumbers = t.leafCount := by
  unfold Expression.countNumbers
  induction t with
  | number value die => rfl
  | group opening inner closing ih =>
    simp [tokens, leafCount, Token.isNumber, ih]
  | before card operand ih | after operand card ih =>
    simp [tokens, leafCount, Token.isNumber, ih]
  | between left card right ihl ihr =>
    simp [tokens, leafCount, Token.isNumber, ihl, ihr]

/-- All other tokens of a tree are its operators. -/
theorem countOperators_tokens (t : SyntaxTree α) :
    t.tokens.countOperators = t.operatorCount := by
  unfold Expression.countOperators
  induction t with
  | number value die => rfl
  | group opening inner closing ih =>
    simp [tokens, operatorCount, Token.isOperator, List.countP_cons, ih]
  | before card operand ih | after operand card ih =>
    simp [tokens, operatorCount, Token.isOperator, List.countP_cons, ih]
  | between left card right ihl ihr =>
    simp [tokens, operatorCount, Token.isOperator, List.countP_cons, ihl, ihr, Nat.add_assoc]

/-! ## What binds how tightly -/

/-- How tightly the parts of a tree hold together. Operators between operands come
with their level; those before an operand bind more tightly than all of them, those
after an operand more tightly still, and numbers and groups are not torn apart. -/
def binding : SyntaxTree α → Nat
  | number .. | group .. => 7
  | after .. => 6
  | before .. => 5
  | between _ card _ => card.op.level

/-- **Every operator has the operands that its place and its level give it.** -/
def Arranged : SyntaxTree α → Prop
  | number .. => True
  | group opening inner closing =>
    opening.op.fixity = .opening ∧ closing.op.fixity = .closing ∧ inner.Arranged
  | before card operand => card.op.fixity = .before ∧ 5 ≤ operand.binding ∧ operand.Arranged
  | after operand card => card.op.fixity = .after ∧ 6 ≤ operand.binding ∧ operand.Arranged
  | between left card right =>
    card.op.fixity = .between ∧ card.op.FitsLeft left.binding ∧ card.op.FitsRight right.binding
      ∧ left.Arranged ∧ right.Arranged

/-- **Every operator stands in its place**, before, after or between operands. This is less than
being arranged: it does not matter how tightly the operands bind. -/
def Placed : SyntaxTree α → Prop
  | number .. => True
  | group _ inner _ => inner.Placed
  | before card operand => card.op.fixity = .before ∧ operand.Placed
  | after operand card => card.op.fixity = .after ∧ operand.Placed
  | between left card right => card.op.fixity = .between ∧ left.Placed ∧ right.Placed

theorem Arranged.placed {t : SyntaxTree α} (h : t.Arranged) : t.Placed := by
  induction t with
  | number value die => trivial
  | group opening inner closing ih => exact ih h.2.2
  | before card operand ih => exact ⟨h.1, ih h.2.2⟩
  | after operand card ih => exact ⟨h.1, ih h.2.2⟩
  | between left card right ihl ihr => exact ⟨h.1, ihl h.2.2.2.1, ihr h.2.2.2.2⟩

/-- **A tree is the reading of an expression** if it is arranged and its tokens are
the expression. -/
structure Reads (t : SyntaxTree α) (e : Expression α) : Prop where
  /-- The tree is arranged. -/
  arranged : t.Arranged
  /-- Its tokens are the expression. -/
  tokens_eq : t.tokens = e

/-! ## Carrying a tree out -/

variable [Scalar α]

/-- An operation on one operand: a finite value, or a fault that names the operator
and the operand. -/
def apply₁ (op : Operator) (a : α) : Except (ExpressionFault α) α :=
  match (op.action : Action α) with
  | .unary f => ((f a).filter Scalar.isFinite).elim (.error (.invalidUnary op a)) .ok
  | _ => .error .invalidStructure

/-- An operation on two operands: a finite value, or a fault that names the operator
and the operands. -/
def apply₂ (a : α) (op : Operator) (b : α) : Except (ExpressionFault α) α :=
  match (op.action : Action α) with
  | .binary f => ((f a b).filter Scalar.isFinite).elim (.error (.invalidBinary a op b)) .ok
  | _ => .error .invalidStructure

/-- **The value of a tree**: the left operand first, then the right one, then the
operation. The first operation without a finite value is the end of it. -/
def value : SyntaxTree α → Except (ExpressionFault α) α
  | number value _ => .ok value
  | group _ inner _ => inner.value
  | before card operand | after operand card => operand.value >>= apply₁ card.op
  | between left card right => do
    let a ← left.value
    let b ← right.value
    apply₂ a card.op b

end SyntaxTree

end Arithmancy
