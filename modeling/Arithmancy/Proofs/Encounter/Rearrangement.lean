import Arithmancy.Encounter.Start
import Arithmancy.Number.Exact
import Arithmancy.Proofs.Encounter.Edits

/-!
# Rearranging an expression

A token that moves is taken out first and put in afterwards. Taking it out shifts every place
behind it by one, so the place that a move names and the place where the token lands are not
always the same (`Session.landing`): to the right, the token lands one place before the one named.

What keeps the four directions of a move – left, right, to the end, nowhere – from being four
arguments is that a list is what it is without one of its members, with that member put in again.
In these terms a move changes nothing but the place of putting in (`moveBefore_insertIdx`), and
moving back is a second change of the same number. The main statement, `Session.move_then_back`,
says where a token lands, and that each edit is undone by another.
-/

namespace Arithmancy

namespace Session

/-! ## Where a token lands -/

/-- The place at which a member lands that moves from the place `i` to before the place `j`,
counted when it has landed. -/
def landing (i j : Nat) : Nat := if i < j then j - 1 else j

theorem landing_of_lt {i j : Nat} (h : i < j) : landing i j = j - 1 := if_pos h

theorem landing_of_le {i j : Nat} (h : j ≤ i) : landing i j = j := if_neg (Nat.not_lt.mpr h)

/-- Whoever moves to before itself, or to before the next one, stays. -/
theorem landing_eq_self {i j : Nat} (h : j = i ∨ j = i + 1) : landing i j = i := by
  rcases h with rfl | rfl
  · exact landing_of_le (Nat.le_refl _)
  · exact landing_of_lt (Nat.lt_succ_self _)

section Lists

variable {β : Type} {items : List β} {i j k : Nat} {b : β}

theorem moveBefore_of_getElem? (h : items[i]? = some b) :
    moveBefore items i j = (items.eraseIdx i).insertIdx (landing i j) b := by
  rw [moveBefore, h]
  rfl

/-- A list is itself without one of its members, with that member put in again. -/
theorem insertIdx_eraseIdx_of_getElem? (h : items[i]? = some b) :
    (items.eraseIdx i).insertIdx i b = items := by
  obtain ⟨hi, rfl⟩ := List.getElem?_eq_some_iff.mp h
  exact List.insertIdx_eraseIdx_getElem hi

/-- **A move changes the place of putting in**, and nothing else. -/
theorem moveBefore_insertIdx (hk : k ≤ items.length) :
    moveBefore (items.insertIdx k b) k j = items.insertIdx (landing k j) b := by
  have hmember : (items.insertIdx k b)[k]? = some b := by
    rw [List.getElem?_insertIdx_self, if_pos hk]
  rw [moveBefore_of_getElem? hmember, List.eraseIdx_insertIdx_self]

/-- The place where a member lands is one of the list without it, or its end. -/
theorem landing_le (hi : i < items.length) (hj : j ≤ items.length) :
    landing i j ≤ (items.eraseIdx i).length := by
  rw [List.length_eraseIdx_of_lt hi, landing]
  split <;> omega

theorem getElem?_moveBefore_landing (h : items[i]? = some b) (hj : j ≤ items.length) :
    (moveBefore items i j)[landing i j]? = some b := by
  obtain ⟨hi, -⟩ := List.getElem?_eq_some_iff.mp h
  rw [moveBefore_of_getElem? h, List.getElem?_insertIdx_self, if_pos (landing_le hi hj)]

/-- Without the member that moved, nothing has moved. -/
theorem eraseIdx_moveBefore (h : items[i]? = some b) :
    (moveBefore items i j).eraseIdx (landing i j) = items.eraseIdx i := by
  rw [moveBefore_of_getElem? h, List.eraseIdx_insertIdx_self]

/-- **Behind the place of landing stands what was at the place that the move names**, and nothing
if that place is the end. -/
theorem getElem?_moveBefore_succ (h : items[i]? = some b) (hji : j ≠ i) :
    (moveBefore items i j)[landing i j + 1]? = items[j]? := by
  rw [moveBefore_of_getElem? h, List.getElem?_insertIdx_of_gt (Nat.lt_add_one _),
    Nat.add_sub_cancel, List.getElem?_eraseIdx]
  rcases Nat.lt_or_gt_of_ne hji with hlt | hlt
  · rw [landing_of_le (Nat.le_of_lt hlt), if_pos hlt]
  · -- to the right of its old place all members count one place less
    rw [landing_of_lt hlt, if_neg (Nat.not_lt.mpr (Nat.le_sub_one_of_lt hlt)),
      Nat.sub_add_cancel (Nat.one_le_of_lt hlt)]

theorem moveBefore_eq_self (h : items[i]? = some b) (hj : j = i ∨ j = i + 1) :
    moveBefore items i j = items := by
  rw [moveBefore_of_getElem? h, landing_eq_self hj, insertIdx_eraseIdx_of_getElem? h]

/-- **A move is undone** by any move from the place of landing that lands where the first one
started. -/
theorem moveBefore_moveBefore {j' : Nat} (h : items[i]? = some b) (hj : j ≤ items.length)
    (hback : landing (landing i j) j' = i) :
    moveBefore (moveBefore items i j) (landing i j) j' = items := by
  obtain ⟨hi, -⟩ := List.getElem?_eq_some_iff.mp h
  rw [moveBefore_of_getElem? h, moveBefore_insertIdx (landing_le hi hj), hback,
    insertIdx_eraseIdx_of_getElem? h]

end Lists

/-! ## Edits and their undoing -/

variable {α : Type} {s s' : Session α} {i j : Nat}

theorem withExpression_withExpression (s : Session α) (e e' : Expression α) :
    (s.withExpression e).withExpression e' = s.withExpression e' := rfl

theorem withExpression_self (s : Session α) : s.withExpression s.expression = s := rfl

theorem isOver_withExpression (s : Session α) (e : Expression α) :
    (s.withExpression e).isOver = s.isOver := rfl

/-- The expression after a move is as long as before. -/
theorem length_moveBefore {β : Type} {items : List β} (hi : i < items.length)
    (hj : j ≤ items.length) : (moveBefore items i j).length = items.length :=
  (moveBefore_perm items hi hj).length_eq

/-- A move that lands where an earlier one started takes the session back. -/
theorem moveToken_back {j' : Nat} (hover : s.isOver = false) (hi : i < s.expression.length)
    (hj : j ≤ s.expression.length) (hj' : j' ≤ s.expression.length)
    (hback : landing (landing i j) j' = i) :
    (s.withExpression (moveBefore s.expression i j)).moveToken (landing i j) j' = .ok s := by
  have hlength := length_moveBefore hi hj
  have hlanding := landing_le hi hj
  rw [List.length_eraseIdx_of_lt hi] at hlanding
  rw [moveToken_eq_ok_iff, isOver_withExpression, expression_withExpression, hlength,
    withExpression_withExpression,
    moveBefore_moveBefore (List.getElem?_eq_getElem hi) hj hback, withExpression_self]
  exact ⟨hover, by omega, hj', rfl⟩

/-- **A token lands before the one named, and each edit is undone by another.** As long as an
encounter goes on, a token moves from any place of the expression to before any other, or to the
end. Without the token the expression is what it was without it before; the token stands directly
before the one that was at the place named, or last if there is none; and nothing changes if the
place named is its own or the next. Moving back from where the token landed, to before what is at
its old place by then, undoes the move. Taking out a token that was just put in gives it back and
undoes the putting in. -/
theorem move_then_back [Scalar α] (s : Session α) :
    (∀ (i j : Nat) (hi : i < s.expression.length), s.isOver = false → j ≤ s.expression.length →
      ∃ e, s.moveToken i j = .ok (s.withExpression e) ∧
        e[landing i j]? = some s.expression[i] ∧
        e.eraseIdx (landing i j) = s.expression.eraseIdx i ∧
        (j ≠ i → e[landing i j + 1]? = s.expression[j]?) ∧
        (j = i ∨ j = i + 1 → e = s.expression) ∧
        (i < j → (s.withExpression e).moveToken (j - 1) i = .ok s) ∧
        (j ≤ i → (s.withExpression e).moveToken j (i + 1) = .ok s)) ∧
    ∀ (p : Player) (t : Token α) (i : Nat) (s' : Session α),
      s.placeToken p t (some i) = .ok s' → s'.removeToken i = .ok (t, s) := by
  refine ⟨fun i j hi hover hj => ?_, fun p t i s' hplace => ?_⟩
  · have hmember : s.expression[i]? = some s.expression[i] := List.getElem?_eq_getElem hi
    refine ⟨moveBefore s.expression i j, moveToken_eq_ok_iff.mpr ⟨hover, hi, hj, rfl⟩,
      getElem?_moveBefore_landing hmember hj, eraseIdx_moveBefore hmember,
      getElem?_moveBefore_succ hmember, moveBefore_eq_self hmember, fun hij => ?_, fun hji => ?_⟩
    · have hback : landing (landing i j) i = i :=
        landing_of_le (by rw [landing_of_lt hij]; omega)
      have h := moveToken_back hover hi hj (Nat.le_of_lt hi) hback
      rwa [landing_of_lt hij] at h
    · have hback : landing (landing i j) (i + 1) = i :=
        landing_of_lt (by rw [landing_of_le hji]; omega)
      have h := moveToken_back hover hi hj (Nat.succ_le_of_lt hi) hback
      rwa [landing_of_le hji] at h
  · obtain ⟨hover, -, hlength, rfl⟩ := placeToken_eq_ok_iff.mp hplace
    rw [Option.getD_some] at hlength ⊢
    refine removeToken_eq_ok_iff.mpr ⟨hover, ?_, ?_⟩
    · rw [expression_withExpression, List.getElem?_insertIdx_self, if_pos hlength]
    · rw [expression_withExpression, List.eraseIdx_insertIdx_self, withExpression_withExpression,
        withExpression_self]

/-- A player with two cards for a sum. -/
def summer : Player := .fresh 80 50 1 [.ofType .d6, .ofType .d6] [.add, .add]

/-- An encounter with a rat, in which five and two are added. -/
def summing : Session Rat :=
  { opening ⟨"rat", "Sewer Rat", 7, 7, .d6, 1, 1, false, none, (6, 12)⟩ [] ⟨1⟩ with
    expression := [.ofDie 5 ⟨0⟩, .ofCard .add 0, .ofDie 2 ⟨1⟩] }

/-- The five moves to the end and back, and a second card goes in and out. -/
theorem move_then_back_summing :
    summing.isOver = false ∧ (∃ e, summing.moveToken 0 3 = .ok (summing.withExpression e) ∧
      e[2]? = some (.ofDie 5 ⟨0⟩) ∧ (summing.withExpression e).moveToken 2 0 = .ok summing) ∧
    ∃ s', summing.placeToken summer (.ofCard .add 1) (some 1) = .ok s' ∧
      s'.removeToken 1 = .ok (.ofCard .add 1, summing) := by
  obtain ⟨e, hmove, hlands, -, -, -, hback, -⟩ :=
    (move_then_back summing).1 0 3 (by decide) rfl (by decide)
  refine ⟨rfl, ⟨e, hmove, hlands, hback (by decide)⟩, ?_⟩
  have hplace : summing.placeToken summer (.ofCard .add 1) (some 1)
      = .ok (summing.withExpression (summing.expression.insertIdx 1 (.ofCard .add 1))) := rfl
  exact ⟨_, hplace, (move_then_back summing).2 _ _ _ _ hplace⟩

end Session

end Arithmancy
