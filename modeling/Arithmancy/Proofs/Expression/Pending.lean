import Arithmancy.Proofs.Expression.SyntaxTree

/-!
# Operators that wait

Read from left to right, a tree is torn open along its right edge: an open group, an
operator before its operand, an operator between operands with the left one in hand.
Each of them is **pending** until its right end is read, and the pending ones form a
stack whose head is the latest.

A stack is nested if each operator in it can become the right operand of the one below
it; completing the upper part of a nested stack then gives an arranged tree
(`Pending.Nested.completeAll`). Which operators have their right end before an incoming
operator is decided by comparing precedences; `Pending.yieldsTo_iff` and
`Pending.not_yieldsTo_iff` say that this is the comparison of levels by which trees
are arranged.
-/

namespace Arithmancy

/-- **An operator that waits for its right end.** -/
inductive Pending (α : Type) where
  /-- An open group. -/
  | group (card : Card)
  /-- An operator before its operand. -/
  | before (card : Card)
  /-- An operator between operands, with the left one. -/
  | between (left : SyntaxTree α) (card : Card)
deriving DecidableEq, Repr

namespace Pending

variable {α : Type}

/-- The card of the operator. -/
def card : Pending α → Card
  | group card | before card | between _ card => card

@[simp] theorem card_group (card : Card) : (group card : Pending α).card = card := rfl

@[simp] theorem card_before (card : Card) : (before card : Pending α).card = card := rfl

@[simp] theorem card_between (left : SyntaxTree α) (card : Card) :
    (between left card).card = card := rfl

/-- The tokens that were read for it. -/
def tokens : Pending α → Expression α
  | group card | before card => [.operator card]
  | between left card => left.tokens ++ [.operator card]

/-- What can be carried out before its right end. -/
def postorder : Pending α → Expression α
  | group _ | before _ => []
  | between left _ => left.postorder

/-- The tree in which a right operand completes it; a group takes a closing
parenthesis besides, and is left alone. -/
def complete (t : SyntaxTree α) : Pending α → SyntaxTree α
  | group _ => t
  | before card => .before card t
  | between left card => .between left card t

/-- How tightly the tree will hold together. -/
def binding : Pending α → Nat
  | group _ => 7
  | before _ => 5
  | between _ card => card.op.level

/-- Whether it takes a right operand that binds so tightly. -/
def Admits (b : Nat) : Pending α → Prop
  | group _ => True
  | before _ => 5 ≤ b
  | between _ card => card.op.FitsRight b

/-- Its operator stands in its place, and its left operand belongs to it. -/
def Sound : Pending α → Prop
  | group card => card.op.fixity = .opening
  | before card => card.op.fixity = .before
  | between left card =>
    card.op.fixity = .between ∧ card.op.FitsLeft left.binding ∧ left.Arranged

theorem Admits.mono {b b' : Nat} (hb : b ≤ b') {p : Pending α} (h : p.Admits b) :
    p.Admits b' := by
  cases p with
  | group card => trivial
  | before card => exact Nat.le_trans h hb
  | between left card => exact Operator.FitsRight.mono h hb

/-- Whatever is not torn apart by an operator between operands can be taken by all. -/
theorem admits_of_le {b : Nat} (hb : 5 ≤ b) (p : Pending α) : p.Admits b := by
  cases p with
  | group card => trivial
  | before card => exact hb
  | between left card =>
    have := card.op.level_le_four
    exact .inl (by omega)

/-- Only a group opens a group. -/
theorem Sound.opens_iff {p : Pending α} (h : p.Sound) :
    Yard.opens p.card = true ↔ ∃ card, p = group card := by
  cases p with
  | group card => simp [Yard.opens, show card.op.fixity = .opening from h]
  | before card => simp [Yard.opens, show card.op.fixity = .before from h]
  | between left card => simp [Yard.opens, h.1]

theorem Sound.opens_eq_false {p : Pending α} (h : p.Sound) (hp : ∀ card, p ≠ group card) :
    Yard.opens p.card = false := by
  rw [← Bool.not_eq_true, h.opens_iff, not_exists]
  exact hp

section

variable {p : Pending α} {t : SyntaxTree α} (hp : ∀ card, p ≠ group card)

include hp

theorem tokens_complete : (p.complete t).tokens = p.tokens ++ t.tokens := by
  cases p with
  | group card => exact absurd rfl (hp card)
  | before card => rfl
  | between left card => simp [complete, tokens, SyntaxTree.tokens]

theorem postorder_complete :
    (p.complete t).postorder = p.postorder ++ t.postorder ++ [.operator p.card] := by
  cases p with
  | group card => exact absurd rfl (hp card)
  | before card => rfl
  | between left card => rfl

theorem binding_complete : (p.complete t).binding = p.binding := by
  cases p with
  | group card => exact absurd rfl (hp card)
  | before card => rfl
  | between left card => rfl

theorem arranged_complete (h : p.Sound) (ht : t.Arranged) (hb : p.Admits t.binding) :
    (p.complete t).Arranged := by
  cases p with
  | group card => exact absurd rfl (hp card)
  | before card => exact ⟨h, hb, ht⟩
  | between left card => exact ⟨h.1, h.2.1, hb, h.2.2, ht⟩

end

end Pending

/-! ## When a waiting operator yields

The stack of cards compares precedences, and the trees compare levels. On operators
that stand between operands both are the same table. -/

namespace Operator

theorem precedence_eq_level {op : Operator} (h : op.fixity = .between) :
    op.precedence = op.level := by
  cases op <;> simp_all [fixity] <;> rfl

theorem precedence_of_before {op : Operator} (h : op.fixity = .before) : op.precedence = 5 := by
  cases op <;> simp_all [fixity] <;> rfl

theorem groupsRight_iff (op : Operator) : op.groupsRight = true ↔ op = .power := by
  cases op <;> simp [groupsRight]

/-- Power is alone on its level. -/
theorem eq_power_iff_of_level_eq {op op' : Operator} (h : op.level = op'.level) :
    op = .power ↔ op' = .power := by
  cases op <;> cases op' <;> simp_all [level]

end Operator

namespace Pending

variable {α : Type}

/-- **A waiting operator yields exactly if its tree can be the left operand** of the
incoming one. -/
theorem yieldsTo_iff {c : Card} (hc : c.op.fixity = .between) {p : Pending α} (h : p.Sound)
    (hp : ∀ card, p ≠ group card) :
    Yard.yieldsTo c p.card = true ↔ c.op.FitsLeft p.binding := by
  have hopens := h.opens_eq_false hp
  -- what waits is an operator before or between, and there the tables agree
  have hprec : p.card.op.precedence = p.binding := by
    cases p with
    | group card => exact absurd rfl (hp card)
    | before card => exact Operator.precedence_of_before h
    | between left card => exact Operator.precedence_eq_level h.1
  rw [Yard.yieldsTo, hopens, hprec, Operator.precedence_eq_level hc]
  have hpower := c.op.groupsRight_iff
  simp only [Bool.not_false, Bool.true_and, Bool.or_eq_true, decide_eq_true_eq,
    Bool.and_eq_true, beq_iff_eq, Bool.not_eq_true', Operator.FitsLeft, ne_eq, ← hpower,
    Bool.not_eq_true]
  rw [eq_comm (a := p.binding)]

/-- **A waiting operator that does not yield takes the incoming one into its right
operand**, and then only. -/
theorem not_yieldsTo_iff {c : Card} (hc : c.op.fixity = .between) {p : Pending α}
    (h : p.Sound) : Yard.yieldsTo c p.card = false ↔ p.Admits c.op.level := by
  cases p with
  | group card =>
    have hopens : Yard.opens card = true := h.opens_iff.mpr ⟨card, rfl⟩
    simp [Yard.yieldsTo, Admits, hopens]
  | before card =>
    rw [← Bool.not_eq_true, yieldsTo_iff hc h (by simp)]
    have := c.op.level_le_four
    simp only [binding, Admits, Operator.FitsLeft]
    omega
  | between left card =>
    rw [← Bool.not_eq_true, yieldsTo_iff hc h (by simp)]
    simp only [binding, Admits, Operator.FitsLeft, Operator.FitsRight]
    -- on one level the two operators group the same way, as power is alone on its own
    rcases Nat.lt_trichotomy c.op.level card.op.level with hlt | heq | hgt
    · simp [hlt, Nat.lt_asymm hlt, Nat.ne_of_gt hlt]
    · simp [heq, Operator.eq_power_iff_of_level_eq heq]
    · simp [hgt, Nat.lt_asymm hgt, Nat.ne_of_gt hgt]

/-! ## Stacks of waiting operators -/

/-- The tokens that were read for a stack, the latest operator being its head. -/
def tokensOf : List (Pending α) → Expression α
  | [] => []
  | p :: ps => tokensOf ps ++ p.tokens

/-- What can be carried out of a stack before its right end. -/
def postorderOf : List (Pending α) → Expression α
  | [] => []
  | p :: ps => postorderOf ps ++ p.postorder

/-- **The tree in which a right operand completes a whole stack.** -/
def completeAll (t : SyntaxTree α) (ps : List (Pending α)) : SyntaxTree α :=
  ps.foldl (fun t p => p.complete t) t

/-- No operator of a stack is an open group. -/
def Groupless (ps : List (Pending α)) : Prop := ∀ p ∈ ps, ∀ card, p ≠ group card

/-- The latest operator of a stack, if there is one, takes a right operand that binds
so tightly. -/
def Welcome (b : Nat) (ps : List (Pending α)) : Prop := ∀ p ∈ ps.head?, p.Admits b

/-- **A stack is nested** if every operator in it is sound and can be, once it is
complete, the right operand of the one below it. -/
def Nested : List (Pending α) → Prop
  | [] => True
  | p :: ps => p.Sound ∧ Welcome p.binding ps ∧ Nested ps

theorem tokensOf_append (ps qs : List (Pending α)) :
    tokensOf (ps ++ qs) = tokensOf qs ++ tokensOf ps := by
  induction ps with
  | nil => simp [tokensOf]
  | cons p ps ih => rw [List.cons_append, tokensOf, ih, tokensOf, List.append_assoc]

theorem postorderOf_append (ps qs : List (Pending α)) :
    postorderOf (ps ++ qs) = postorderOf qs ++ postorderOf ps := by
  induction ps with
  | nil => simp [postorderOf]
  | cons p ps ih => rw [List.cons_append, postorderOf, ih, postorderOf, List.append_assoc]

theorem completeAll_append (t : SyntaxTree α) (ps qs : List (Pending α)) :
    completeAll t (ps ++ qs) = completeAll (completeAll t ps) qs :=
  List.foldl_append

theorem Nested.sound {ps : List (Pending α)} (h : Nested ps) : ∀ p ∈ ps, p.Sound := by
  induction ps with
  | nil => simp
  | cons q ps ih =>
    intro p hp
    rcases List.mem_cons.mp hp with rfl | hp
    · exact h.1
    · exact ih h.2.2 p hp

theorem Nested.right {ps qs : List (Pending α)} (h : Nested (ps ++ qs)) : Nested qs := by
  induction ps with
  | nil => exact h
  | cons p ps ih => exact ih h.2.2

/-- In a nested stack, the groups are what opens a group. -/
theorem Nested.groupless_iff {ps qs : List (Pending α)} (h : Nested (ps ++ qs)) :
    Groupless ps ↔ ∀ p ∈ ps, Yard.opens p.card = false := by
  refine forall₂_congr fun p hp => ?_
  have hsound := h.sound p (List.mem_append_left qs hp)
  rw [← Bool.not_eq_true, hsound.opens_iff, not_exists]

theorem tokens_completeAll {t : SyntaxTree α} {ps : List (Pending α)} (h : Groupless ps) :
    (completeAll t ps).tokens = tokensOf ps ++ t.tokens := by
  induction ps generalizing t with
  | nil => rfl
  | cons p ps ih =>
    have hp := h p List.mem_cons_self
    rw [completeAll, List.foldl_cons, ← completeAll, ih fun q hq => h q (List.mem_cons_of_mem p hq),
      tokens_complete hp, tokensOf, List.append_assoc]

theorem postorder_completeAll {t : SyntaxTree α} {ps : List (Pending α)} (h : Groupless ps) :
    (completeAll t ps).postorder
      = postorderOf ps ++ t.postorder ++ ps.map fun p => .operator p.card := by
  induction ps generalizing t with
  | nil => simp [completeAll, postorderOf]
  | cons p ps ih =>
    have hp := h p List.mem_cons_self
    rw [completeAll, List.foldl_cons, ← completeAll, ih fun q hq => h q (List.mem_cons_of_mem p hq),
      postorder_complete hp, postorderOf, List.map_cons]
    simp only [List.append_assoc, List.singleton_append]

/-- **Completing the upper part of a nested stack gives an arranged tree** that the
rest of the stack takes. The tree binds as tightly as the last operator that was
completed. -/
theorem Nested.completeAll {ps qs : List (Pending α)} {t : SyntaxTree α}
    (h : Nested (ps ++ qs)) (hg : Groupless ps) (ht : t.Arranged)
    (hw : Welcome t.binding (ps ++ qs)) :
    (completeAll t ps).Arranged ∧ Welcome (completeAll t ps).binding qs
      ∧ ((completeAll t ps).binding = t.binding
        ∨ ∃ p ∈ ps, (completeAll t ps).binding = p.binding) := by
  induction ps generalizing t with
  | nil => exact ⟨ht, hw, .inl rfl⟩
  | cons p ps ih =>
    have hp := hg p List.mem_cons_self
    have hbinding : (p.complete t).binding = p.binding := binding_complete hp
    obtain ⟨harr, hwel, hbind⟩ := ih h.2.2 (fun q hq => hg q (List.mem_cons_of_mem p hq))
      (arranged_complete hp h.1 ht (hw p rfl)) (hbinding ▸ h.2.1)
    refine ⟨harr, hwel, .inr ?_⟩
    rcases hbind with heq | ⟨q, hq, heq⟩
    · exact ⟨p, List.mem_cons_self, heq.trans hbinding⟩
    · exact ⟨q, List.mem_cons_of_mem p hq, heq⟩

end Pending

end Arithmancy
