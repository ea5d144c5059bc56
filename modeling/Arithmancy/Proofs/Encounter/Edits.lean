import Mathlib.Data.List.Perm.Basic
import Arithmancy.Encounter.Edit

/-!
# What an edit does

An edit of the expression that is not refused does one thing: it puts one token in,
takes one out, or puts one elsewhere. This module says for each edit when it is not
refused and what the expression is then, so that nothing else has to look into the
checks.
-/

namespace Arithmancy

namespace Session

variable {α : Type} {s s' : Session α}

@[simp] theorem expression_withExpression (e : Expression α) :
    (s.withExpression e).expression = e := rfl

/-! ## Taking out and putting elsewhere -/

theorem removeToken_eq_ok_iff {i : Nat} {t : Token α} :
    s.removeToken i = .ok (t, s') ↔ s.isOver = false ∧ s.expression[i]? = some t
      ∧ s' = s.withExpression (s.expression.eraseIdx i) := by
  unfold removeToken ensureBuilding
  cases s.isOver with
  | true => simp [bind, Except.bind]
  | false =>
    cases s.expression[i]? with
    | none => simp [bind, Except.bind]
    | some t' => simp [bind, Except.bind, pure, Except.pure, eq_comm]

theorem moveToken_eq_ok_iff {i j : Nat} :
    s.moveToken i j = .ok s' ↔ s.isOver = false ∧ i < s.expression.length
      ∧ j ≤ s.expression.length ∧ s' = s.withExpression (moveBefore s.expression i j) := by
  unfold moveToken ensureBuilding
  cases s.isOver with
  | true => simp [bind, Except.bind]
  | false =>
    by_cases hi : s.expression.length ≤ i
    · simp [bind, Except.bind, hi, Nat.not_lt.mpr hi]
    · by_cases hj : s.expression.length < j
      · simp [bind, Except.bind, hi, hj, Nat.not_le.mpr hj]
      · simp [bind, Except.bind, pure, Except.pure, hi, hj, Nat.lt_of_not_le hi,
          Nat.le_of_not_lt hj, eq_comm]

/-- A move takes no token away and brings none in. -/
theorem moveBefore_perm {β : Type} (items : List β) {i j : Nat} (hi : i < items.length)
    (hj : j ≤ items.length) : (moveBefore items i j).Perm items := by
  -- without the token there is one place less, and the place to move to counts from there
  have hplace : (if i < j then j - 1 else j) ≤ (items.eraseIdx i).length := by
    rw [List.length_eraseIdx_of_lt hi]
    split <;> omega
  rw [moveBefore, List.getElem?_eq_getElem hi]
  exact (List.perm_insertIdx _ _ hplace).trans (List.getElem_cons_eraseIdx_perm hi)

/-! ## Putting in -/

variable [Scalar α] {p : Player}

/-- **A number that passes** is shown by the die it names, which is not placed yet. -/
theorem checkNumber_eq_ok_iff {value : α} {die : Option DieId} :
    s.checkNumber value die = .ok () ↔ ∃ id d shown, die = some id ∧ s.die? id = some d
      ∧ d.value = some shown ∧ ((Scalar.ofNat shown : α) == value) = true
      ∧ s.isPlaced id = false := by
  unfold checkNumber
  cases die with
  | none => simp
  | some id =>
    cases hdie : s.die? id with
    | none => simp [hdie]
    | some d =>
      cases hvalue : d.value with
      | none => simp [hdie, hvalue]
      | some shown =>
        cases hshown : ((Scalar.ofNat shown : α) == value) <;> cases hplaced : s.isPlaced id <;>
          simp [hdie, hvalue, hshown, hplaced]

omit [Scalar α] in
/-- **An operator that passes** is on the card in the slot it names, which is not used
up. -/
theorem checkCard_eq_ok_iff {card : Card} :
    s.checkCard p card = .ok () ↔ ∃ slot, card.slot = some slot
      ∧ p.hand[slot]? = some card.op ∧ s.cardUses slot < Relics.cardUses p.relics := by
  unfold checkCard
  cases card.slot with
  | none => simp
  | some slot =>
    cases hheld : p.hand[slot]? with
    | none => simp [hheld]
    | some held =>
      by_cases hop : held = card.op
      · by_cases huses : Relics.cardUses p.relics ≤ s.cardUses slot
        · simp [hheld, hop, huses, Nat.not_lt.mpr huses]
        · simp [hheld, hop, huses, Nat.lt_of_not_le huses]
      · simp [hheld, hop]

theorem placeToken_eq_ok_iff {t : Token α} {place : Option Nat} :
    s.placeToken p t place = .ok s' ↔ s.isOver = false ∧ s.checkToken p t = .ok ()
      ∧ place.getD s.expression.length ≤ s.expression.length
      ∧ s' = s.withExpression
        (s.expression.insertIdx (place.getD s.expression.length) t) := by
  unfold placeToken ensureBuilding
  cases s.isOver with
  | true => simp [bind, Except.bind]
  | false =>
    cases s.checkToken p t with
    | error fault => simp [bind, Except.bind]
    | ok _ =>
      by_cases hplace : s.expression.length < place.getD s.expression.length
      · simp [bind, Except.bind, hplace, Nat.not_le.mpr hplace]
      · simp [bind, Except.bind, pure, Except.pure, hplace, Nat.le_of_not_lt hplace, eq_comm]

/-- To place a die is to place the token for what it shows. -/
theorem placeDie_eq_ok_iff {id : DieId} :
    s.placeDie p id = .ok s' ↔ ∃ d shown, s.die? id = some d ∧ d.value = some shown
      ∧ s.placeToken p (.ofDie shown id) none = .ok s' := by
  unfold placeDie
  cases hdie : s.die? id with
  | none => simp
  | some d =>
    cases hvalue : d.value with
    | none => simp [hvalue]
    | some shown => simp [hvalue]

/-- To place a card is to place the token for its operator. -/
theorem placeOperator_eq_ok_iff {slot : Nat} :
    s.placeOperator p slot = .ok s' ↔ ∃ op, p.hand[slot]? = some op
      ∧ s.placeToken p (.ofCard op slot) none = .ok s' := by
  unfold placeOperator
  cases hheld : p.hand[slot]? with
  | none => simp
  | some op => simp

end Session

end Arithmancy
