import Arithmancy.Proofs.Expression.TreeEvaluation

/-!
# The trees that are listed in postfix order

Tokens in postfix order are evaluated on a stack of values, and nothing is asked of them
beforehand. They may be short of operands, leave several values or hold parentheses, and the
arithmetic may fail before any of that shows. What decides is whether the tokens list a tree
without parentheses, every operation after its operands (`SyntaxTree.ListedBy`).

The tokens can be read over a stack of trees instead of values (`SyntaxTree.grow`). On the tokens
of a tree this leaves that tree on the stack, so no tokens list two trees. And it keeps step with
the evaluation: as long as the operations have finite values, the stack of values is what the
stack of trees is worth, and the stack of trees lists the tokens read so far. So a value comes of
trees only. Where an operation of a tree fails, the one that is reported is the first of them in
the order of the tokens (`SyntaxTree.Plain.failsFirst`). All of this is put together in
`Expression.evaluatePostfix_by_tree`.
-/

namespace Arithmancy

variable {α : Type}

namespace SyntaxTree

/-! ## Trees without parentheses -/

/-- **A tree without parentheses** whose operators stand in their places. -/
def Plain : SyntaxTree α → Prop
  | number .. => True
  | group .. => False
  | before card operand => card.op.fixity = .before ∧ operand.Plain
  | after operand card => card.op.fixity = .after ∧ operand.Plain
  | between left card right => card.op.fixity = .between ∧ left.Plain ∧ right.Plain

theorem Plain.placed {t : SyntaxTree α} (h : t.Plain) : t.Placed := by
  induction t with
  | number value die => trivial
  | group opening inner closing => exact h.elim
  | before card operand ih => exact ⟨h.1, ih h.2⟩
  | after operand card ih => exact ⟨h.1, ih h.2⟩
  | between left card right ihl ihr => exact ⟨h.1, ihl h.2.1, ihr h.2.2⟩

/-- **Tokens list a tree** if it has no parentheses and they are its operations in the order in
which they are carried out. -/
structure ListedBy (t : SyntaxTree α) (p : Expression α) : Prop where
  /-- The tree has no parentheses. -/
  plain : t.Plain
  /-- The tokens are its operations in order. -/
  postorder_eq : t.postorder = p

/-! ## Tokens read over a stack of trees -/

/-- **One token over a stack of trees**, the latest first: an operator takes the latest trees for
its operands. -/
def grow (trees : List (SyntaxTree α)) : Token α → Option (List (SyntaxTree α))
  | .number value die => some (.number value die :: trees)
  | .operator card =>
    match card.op.fixity, trees with
    | .before, operand :: trees => some (.before card operand :: trees)
    | .after, operand :: trees => some (.after operand card :: trees)
    | .between, right :: left :: trees => some (.between left card right :: trees)
    | _, _ => none

/-- The tokens that a stack of trees lists. -/
def listing : List (SyntaxTree α) → Expression α
  | [] => []
  | t :: trees => listing trees ++ t.postorder

section Grow

variable {card : Card} {trees trees' : List (SyntaxTree α)} {t left right : SyntaxTree α}

theorem grow_before (h : card.op.fixity = .before) :
    grow (t :: trees) (.operator card) = some (.before card t :: trees) := by
  simp only [grow, h]

theorem grow_after (h : card.op.fixity = .after) :
    grow (t :: trees) (.operator card) = some (.after t card :: trees) := by
  simp only [grow, h]

theorem grow_between (h : card.op.fixity = .between) :
    grow (right :: left :: trees) (.operator card)
      = some (.between left card right :: trees) := by
  simp only [grow, h]

/-- **Reading the operations of a tree** puts the tree on the stack. -/
theorem foldlM_postorder (h : t.Plain) (trees : List (SyntaxTree α)) :
    t.postorder.foldlM grow trees = some (t :: trees) := by
  induction t generalizing trees with
  | number value die => rfl
  | group opening inner closing => exact h.elim
  | before card operand ih =>
    rw [postorder, List.foldlM_append, ih h.2]
    exact (bind_pure _).trans (grow_before h.1)
  | after operand card ih =>
    rw [postorder, List.foldlM_append, ih h.2]
    exact (bind_pure _).trans (grow_after h.1)
  | between left card right ihl ihr =>
    rw [postorder, List.foldlM_append, List.foldlM_append, ihl h.2.1]
    show (right.postorder.foldlM grow (left :: trees)) >>= _ = _
    rw [ihr h.2.2]
    exact (bind_pure _).trans (grow_between h.1)

/-- **No tokens list two trees.** -/
theorem ListedBy.unique {t t' : SyntaxTree α} {p : Expression α} (h : t.ListedBy p)
    (h' : t'.ListedBy p) : t' = t := by
  have ht := foldlM_postorder h.plain []
  have ht' := foldlM_postorder h'.plain []
  rw [h.postorder_eq] at ht
  rw [h'.postorder_eq, ht] at ht'
  exact (List.cons.inj (Option.some.inj ht')).1.symm

/-- One token keeps the trees without parentheses, and is listed by them after those before. -/
theorem plain_of_grow {token : Token α} (h : grow trees token = some trees')
    (hplain : ∀ t ∈ trees, t.Plain) :
    (∀ t ∈ trees', t.Plain) ∧ listing trees' = listing trees ++ [token] := by
  cases token with
  | number value die =>
    obtain rfl := Option.some.inj h
    exact ⟨List.forall_mem_cons.mpr ⟨trivial, hplain⟩, rfl⟩
  | operator card =>
    unfold grow at h
    dsimp only at h
    split at h
    · next operand rest _ hfix =>
      obtain rfl := Option.some.inj h
      obtain ⟨hoperand, hrest⟩ := List.forall_mem_cons.mp hplain
      exact ⟨List.forall_mem_cons.mpr ⟨⟨hfix, hoperand⟩, hrest⟩, (List.append_assoc ..).symm⟩
    · next operand rest _ hfix =>
      obtain rfl := Option.some.inj h
      obtain ⟨hoperand, hrest⟩ := List.forall_mem_cons.mp hplain
      exact ⟨List.forall_mem_cons.mpr ⟨⟨hfix, hoperand⟩, hrest⟩, (List.append_assoc ..).symm⟩
    · next right left rest _ hfix =>
      obtain rfl := Option.some.inj h
      obtain ⟨hright, hplain⟩ := List.forall_mem_cons.mp hplain
      obtain ⟨hleft, hrest⟩ := List.forall_mem_cons.mp hplain
      refine ⟨List.forall_mem_cons.mpr ⟨⟨hfix, hleft, hright⟩, hrest⟩, ?_⟩
      simp only [listing, postorder, List.append_assoc]
    · cases h

/-- **What was read is listed**, all of it. -/
theorem plain_of_foldlM {p : Expression α} (h : p.foldlM grow trees = some trees')
    (hplain : ∀ t ∈ trees, t.Plain) :
    (∀ t ∈ trees', t.Plain) ∧ listing trees' = listing trees ++ p := by
  induction p generalizing trees with
  | nil =>
    obtain rfl := Option.some.inj h
    exact ⟨hplain, (List.append_nil _).symm⟩
  | cons token p ih =>
    rw [List.foldlM_cons] at h
    obtain ⟨grown, hgrow, hrest⟩ := Option.bind_eq_some_iff.mp h
    obtain ⟨hgrown, hlisting⟩ := plain_of_grow hgrow hplain
    obtain ⟨hplain', hlisting'⟩ := ih hrest hgrown
    exact ⟨hplain', by rw [hlisting', hlisting, List.append_assoc]; rfl⟩

end Grow

variable [Scalar α]

open Expression

/-! ## Values keep step with trees -/

section Worth

variable {trees : List (SyntaxTree α)} {stack stack' : List α}

/-- A stack of trees that is worth some values begins with a tree that is worth the first. -/
theorem exists_worth {a : α} (hworth : trees.map value = (a :: stack).map .ok) :
    ∃ t rest, trees = t :: rest ∧ t.value = .ok a ∧ rest.map value = stack.map .ok := by
  rw [List.map_cons, List.map_eq_cons_iff] at hworth
  exact hworth

/-- **One token that is evaluated** is read over the trees that the values are of, and what it
leaves is what the trees are worth then. -/
theorem exists_grow {token : Token α} (hworth : trees.map value = stack.map .ok)
    (h : evaluateStep stack token = .ok stack') :
    ∃ trees', grow trees token = some trees' ∧ trees'.map value = stack'.map .ok := by
  rcases evaluateStep_cases h with ⟨v, die, rfl, rfl⟩ |
    ⟨card, a, below, v, rfl, hfix, rfl, hv, rfl⟩ | ⟨card, a, b, below, v, rfl, hfix, rfl, hv, rfl⟩
  · exact ⟨_, rfl, congrArg (Except.ok v :: ·) hworth⟩
  · obtain ⟨t, rest, rfl, ht, hrest⟩ := exists_worth hworth
    have hvalue : t.value >>= apply₁ card.op = .ok v := by
      rw [ht]
      exact hv
    rcases hfix with hfix | hfix
    · exact ⟨_, grow_before hfix, congr (congrArg List.cons hvalue) hrest⟩
    · exact ⟨_, grow_after hfix, congr (congrArg List.cons hvalue) hrest⟩
  · obtain ⟨right, rest, rfl, hright, hworth⟩ := exists_worth hworth
    obtain ⟨left, rest, rfl, hleft, hrest⟩ := exists_worth hworth
    have hvalue : (between left card right).value = .ok v := by
      rw [SyntaxTree.value, hleft, hright]
      exact hv
    exact ⟨_, grow_between hfix, congr (congrArg List.cons hvalue) hrest⟩

/-- **Tokens that are evaluated** are read over the trees that the values are of. -/
theorem exists_foldlM {p : Expression α} (hworth : trees.map value = stack.map .ok)
    (h : evaluateTokens stack p = .ok stack') :
    ∃ trees', p.foldlM grow trees = some trees' ∧ trees'.map value = stack'.map .ok := by
  induction p generalizing trees stack with
  | nil =>
    obtain rfl := Except.ok.inj h
    exact ⟨trees, rfl, hworth⟩
  | cons token p ih =>
    obtain ⟨evaluated, hstep, h⟩ := exists_of_evaluateTokens_cons h
    obtain ⟨grown, hgrow, hworth'⟩ := exists_grow hworth hstep
    obtain ⟨trees', hrest, hworth''⟩ := ih hworth' h
    refine ⟨trees', ?_, hworth''⟩
    rw [List.foldlM_cons, hgrow]
    exact hrest

end Worth

/-- **A value comes of a tree** that the tokens list, and is its value. -/
theorem exists_listedBy {p : Expression α} {v : α} (h : evaluatePostfix p = .ok v) :
    ∃ t : SyntaxTree α, t.ListedBy p ∧ t.value = .ok v := by
  have hnone : ([] : List (SyntaxTree α)).map value = [].map .ok := rfl
  obtain ⟨trees, hread, hworth⟩ := exists_foldlM hnone (evaluateTokens_of_evaluatePostfix h)
  obtain ⟨t, rest, rfl, ht, hrest⟩ := exists_worth hworth
  obtain rfl := List.map_eq_nil_iff.mp hrest
  obtain ⟨hplain, hlisting⟩ := plain_of_foldlM hread (by simp)
  exact ⟨t, ⟨hplain t List.mem_cons_self, hlisting⟩, ht⟩

/-! ## The first operation that fails -/

/-- The token that a tree is listed with: its number, or the operator that is applied last. -/
def root : SyntaxTree α → Token α
  | number value die => .number value die
  | group _ inner _ => inner.root
  | before card _ | after _ card | between _ card _ => .operator card

/-- **The trees within a tree**, in the order of the tokens that list them. -/
def subtrees : SyntaxTree α → List (SyntaxTree α)
  | number value die => [number value die]
  | group _ inner _ => inner.subtrees
  | before card operand => operand.subtrees ++ [before card operand]
  | after operand card => operand.subtrees ++ [after operand card]
  | between left card right => left.subtrees ++ right.subtrees ++ [between left card right]

/-- **An operation fails** where its operands have values and it has no finite one, with the fault
that names it. -/
inductive Fails : SyntaxTree α → ExpressionFault α → Prop where
  /-- An operator before its operand. -/
  | before {card : Card} {operand : SyntaxTree α} {a : α} (ha : operand.value = .ok a)
      (h : apply₁ card.op a = .error (.invalidUnary card.op a)) :
      Fails (.before card operand) (.invalidUnary card.op a)
  /-- An operator after its operand. -/
  | after {card : Card} {operand : SyntaxTree α} {a : α} (ha : operand.value = .ok a)
      (h : apply₁ card.op a = .error (.invalidUnary card.op a)) :
      Fails (.after operand card) (.invalidUnary card.op a)
  /-- An operator between its operands. -/
  | between {card : Card} {left right : SyntaxTree α} {a b : α} (ha : left.value = .ok a)
      (hb : right.value = .ok b)
      (h : apply₂ a card.op b = .error (.invalidBinary a card.op b)) :
      Fails (.between left card right) (.invalidBinary a card.op b)

section Failure

variable {s t : SyntaxTree α} {v : α} {fault : ExpressionFault α}

omit [Scalar α] in
theorem map_root_subtrees (t : SyntaxTree α) : t.subtrees.map root = t.postorder := by
  induction t with
  | number value die => rfl
  | group opening inner closing ih => exact ih
  | before card operand ih => rw [subtrees, List.map_append, ih]; rfl
  | after operand card ih => rw [subtrees, List.map_append, ih]; rfl
  | between left card right ihl ihr =>
    rw [subtrees, List.map_append, List.map_append, ihl, ihr]
    rfl

theorem Fails.value_eq (h : s.Fails fault) : s.value = .error fault := by
  cases h with
  | before ha h | after ha h =>
    rw [SyntaxTree.value, ha]
    exact h
  | between ha hb h =>
    rw [SyntaxTree.value, ha, hb]
    exact h

theorem not_fails_of_value (h : s.value = .ok v) : ¬s.Fails fault := fun hfails => by
  have hvalue := hfails.value_eq
  rw [h] at hvalue
  cases hvalue

/-- **Where a tree has a value**, no operation of it fails. -/
theorem not_fails_of_mem_subtrees (h : t.value = .ok v) (hs : s ∈ t.subtrees) :
    ¬s.Fails fault := by
  induction t generalizing v with
  | number value die =>
    obtain rfl := List.mem_singleton.mp hs
    exact not_fails_of_value h
  | group opening inner closing ih => exact ih h hs
  | before card operand ih | after operand card ih =>
    rcases List.mem_append.mp hs with hs | hs
    · cases hoperand : operand.value with
      | ok a => exact ih hoperand hs
      | error fault' =>
        rw [SyntaxTree.value, hoperand] at h
        cases h
    · obtain rfl := List.mem_singleton.mp hs
      exact not_fails_of_value h
  | between left card right ihl ihr =>
    rcases List.mem_append.mp hs with hs | hs
    · rw [SyntaxTree.value] at h
      cases hleft : left.value with
      | error fault' =>
        rw [hleft] at h
        cases h
      | ok a =>
        cases hright : right.value with
        | error fault' =>
          rw [hleft, hright] at h
          cases h
        | ok b => exact (List.mem_append.mp hs).elim (ihl hleft) (ihr hright)
    · obtain rfl := List.mem_singleton.mp hs
      exact not_fails_of_value h

/-- The first operation that fails in a list of trees, and its fault. -/
def FailsFirst (trees : List (SyntaxTree α)) (fault : ExpressionFault α) : Prop :=
  ∃ earlier s later, trees = earlier ++ s :: later
    ∧ (∀ s' ∈ earlier, ∀ fault', ¬s'.Fails fault') ∧ s.Fails fault

theorem failsFirst_singleton (h : s.Fails fault) : FailsFirst [s] fault :=
  ⟨[], s, [], rfl, by simp, h⟩

theorem FailsFirst.append {trees : List (SyntaxTree α)} (h : FailsFirst trees fault)
    (trees' : List (SyntaxTree α)) : FailsFirst (trees ++ trees') fault := by
  obtain ⟨earlier, s, later, rfl, hearlier, hs⟩ := h
  exact ⟨earlier, s, later ++ trees', List.append_assoc .., hearlier, hs⟩

/-- Trees without a failure may stand before the first one. -/
theorem FailsFirst.of_value {trees : List (SyntaxTree α)} (h : FailsFirst trees fault)
    (ht : t.value = .ok v) : FailsFirst (t.subtrees ++ trees) fault := by
  obtain ⟨earlier, s, later, rfl, hearlier, hs⟩ := h
  exact ⟨t.subtrees ++ earlier, s, later, (List.append_assoc ..).symm, List.forall_mem_append.mpr
    ⟨fun s' hs' _ => not_fails_of_mem_subtrees ht hs', hearlier⟩, hs⟩

/-- **The fault of a tree is that of the first operation that fails**, in the order of the
tokens. -/
theorem Plain.failsFirst (hplain : t.Plain) (h : t.value = .error fault) :
    FailsFirst t.subtrees fault := by
  induction t with
  | number value die => cases h
  | group opening inner closing => exact hplain.elim
  | before card operand ih =>
    rw [SyntaxTree.value] at h
    cases hoperand : operand.value with
    | error fault' =>
      obtain rfl : fault' = fault := by rw [hoperand] at h; exact Except.error.inj h
      exact (ih hplain.2 hoperand).append _
    | ok a =>
      rw [hoperand] at h
      obtain rfl := eq_invalidUnary_of_apply₁ (.inl hplain.1) h
      exact (failsFirst_singleton (.before hoperand h)).of_value hoperand
  | after operand card ih =>
    rw [SyntaxTree.value] at h
    cases hoperand : operand.value with
    | error fault' =>
      obtain rfl : fault' = fault := by rw [hoperand] at h; exact Except.error.inj h
      exact (ih hplain.2 hoperand).append _
    | ok a =>
      rw [hoperand] at h
      obtain rfl := eq_invalidUnary_of_apply₁ (.inr hplain.1) h
      exact (failsFirst_singleton (.after hoperand h)).of_value hoperand
  | between left card right ihl ihr =>
    obtain ⟨hfix, hplainl, hplainr⟩ := hplain
    rw [SyntaxTree.value] at h
    rw [subtrees, List.append_assoc]
    cases hleft : left.value with
    | error fault' =>
      obtain rfl : fault' = fault := by rw [hleft] at h; exact Except.error.inj h
      exact (ihl hplainl hleft).append _
    | ok a =>
      refine FailsFirst.of_value ?_ hleft
      cases hright : right.value with
      | error fault' =>
        obtain rfl : fault' = fault := by rw [hleft, hright] at h; exact Except.error.inj h
        exact (ihr hplainr hright).append _
      | ok b =>
        rw [hleft, hright] at h
        obtain rfl := eq_invalidBinary_of_apply₂ hfix h
        exact (failsFirst_singleton (.between hleft hright h)).of_value hright

end Failure

end SyntaxTree

/-! ## What tokens evaluate to -/

open SyntaxTree

/-- **Tokens in postfix order are evaluated as the tree that they list**, whatever tokens they are.
They have a value exactly if they list a tree without parentheses no operation of which fails, and
it is the value of that tree; there is never a second one. Where an operation of the tree fails,
the fault names the first one in the order of the tokens. That there are too few operands, or that
no single value is left, is only reported of tokens that list no tree. -/
theorem Expression.evaluatePostfix_by_tree [Scalar α] (p : Expression α) :
    (∀ v, evaluatePostfix p = .ok v ↔ ∃! t : SyntaxTree α,
        t.ListedBy p ∧ (∀ s ∈ t.subtrees, ∀ fault, ¬s.Fails fault) ∧ t.value = .ok v)
      ∧ (∀ t t' : SyntaxTree α, t.ListedBy p → t'.ListedBy p → t' = t)
      ∧ (∀ t : SyntaxTree α, t.ListedBy p → (∃ s ∈ t.subtrees, ∃ fault, s.Fails fault) →
          ∃ earlier s later fault, t.subtrees = earlier ++ s :: later
            ∧ (∀ s' ∈ earlier, ∀ fault', ¬s'.Fails fault') ∧ s.Fails fault
            ∧ p[earlier.length]? = some s.root ∧ evaluatePostfix p = .error fault)
      ∧ (evaluatePostfix p = .error .notEnoughOperands ∨
          evaluatePostfix p = .error .invalidStructure → ¬∃ t : SyntaxTree α, t.ListedBy p) := by
  have heval : ∀ t : SyntaxTree α, t.ListedBy p → evaluatePostfix p = t.value := fun t ht => by
    rw [← ht.postorder_eq]
    exact evaluatePostfix_postorder ht.plain.placed
  refine ⟨fun v => ⟨fun h => ?_, fun ⟨t, ⟨ht, _, hv⟩, _⟩ => (heval t ht).trans hv⟩,
    fun t t' ht ht' => ht.unique ht', fun t ht ⟨s, hs, fault, hfails⟩ => ?_, fun h ⟨t, ht⟩ => ?_⟩
  · obtain ⟨t, ht, hv⟩ := exists_listedBy h
    exact ⟨t, ⟨ht, fun s hs _ => not_fails_of_mem_subtrees hv hs, hv⟩,
      fun t' ht' => ht.unique ht'.1⟩
  · cases hvalue : t.value with
    | ok v => exact absurd hfails (not_fails_of_mem_subtrees hvalue hs)
    | error first =>
      obtain ⟨earlier, s, later, heq, hearlier, hs⟩ := ht.plain.failsFirst hvalue
      refine ⟨earlier, s, later, first, heq, hearlier, hs, ?_, (heval t ht).trans hvalue⟩
      rw [← ht.postorder_eq, ← map_root_subtrees, heq]
      simp
  · rw [heval t ht] at h
    rcases h with h | h <;>
      rcases ht.plain.placed.isArithmetic h with ⟨op, a, hfault⟩ | ⟨a, op, b, hfault⟩ <;>
      cases hfault

end Arithmancy
