import Arithmancy.Proofs.Expression.Derivation

/-!
# Where the grammar breaks

An expression that is written from left to right can go wrong at one point only: up to
some token it could still have been completed (`Expression.Viable`), and with that token
it cannot any more. The scan stops right there. It lets a token pass exactly as long as
some continuation is left: where a value is due a number will do, and then every open
group can be closed.

So the position in a report is not merely where the scan gave up. It is the first token
that no continuation can make good (`Expression.validate_reports`). The reports without
a position are those of expressions that only lack something at their end, and the
number of parentheses that are said to be missing is the number that will do.
-/

namespace Arithmancy

variable {α : Type}

/-- The position that a fault names, counted from one. -/
def ExpressionFault.position? : ExpressionFault α → Option Nat
  | unexpectedNumber p | unexpectedOpenParen p | unexpectedCloseParen p | unmatchedCloseParen p
  | unexpectedPrefix _ p | unexpectedPostfix _ p | unexpectedOperator _ p => some p
  | _ => none

/-- **What only the end of an expression shows**: that it is empty, ends where a value is
due, or leaves groups open. -/
def ExpressionFault.Unfinished (fault : ExpressionFault α) : Prop :=
  fault = .empty ∨ fault = .trailingOperator ∨ ∃ k, fault = .unclosedParen k

theorem ExpressionFault.Unfinished.position?_eq_none {fault : ExpressionFault α}
    (h : fault.Unfinished) : fault.position? = none := by
  obtain rfl | rfl | ⟨k, rfl⟩ := h <;> rfl

/-- **An expression is viable** if some continuation of it passes the scan. -/
def Expression.Viable (e : Expression α) : Prop :=
  ∃ rest : Expression α, (e ++ rest).validate = .ok ()

/-! ## Where a scan stops -/

namespace Cursor

/-- A scan that has stopped sees nothing of the rest. -/
theorem scan_append_of_error {c : Cursor} {n : Nat} {e : Expression α}
    {fault : ExpressionFault α} (h : c.scan n e = .error fault) (e' : Expression α) :
    c.scan n (e ++ e') = .error fault := by
  induction e generalizing c n with
  | nil => cases h
  | cons t e ih =>
    rw [scan] at h
    rw [List.cons_append, scan]
    cases hstep : c.step n t with
    | error fault' =>
      rw [hstep] at h
      exact h
    | ok c' =>
      rw [hstep] at h
      exact ih h

/-- A token that does not pass is reported at its own position. -/
theorem position?_of_step {c : Cursor} {n : Nat} {t : Token α} {fault : ExpressionFault α}
    (h : c.step n t = .error fault) : fault.position? = some n := by
  obtain ⟨expectValue, depth⟩ := c
  cases t with
  | number value die =>
    cases expectValue <;> simp [step] at h
    rw [← h]
    rfl
  | operator card =>
    cases hfix : card.op.fixity <;> cases expectValue <;> simp [step, hfix] at h
    case closing.false =>
      by_cases hdepth : depth = 0
      · rw [if_pos hdepth] at h
        rw [← Except.error.inj h]
        rfl
      · simp [hdepth] at h
    all_goals rw [← h]; rfl

/-- **A scan stops at one token**: it passes the tokens before it, and reports it. -/
theorem exists_of_scan_eq_error {c : Cursor} {n : Nat} {e : Expression α}
    {fault : ExpressionFault α} (h : c.scan n e = .error fault) :
    ∃ i, fault.position? = some (n + i) ∧ (∃ c', c.scan n (e.take i) = .ok c')
      ∧ c.scan n (e.take (i + 1)) = .error fault := by
  induction e generalizing c n with
  | nil => cases h
  | cons t e ih =>
    rw [scan] at h
    cases hstep : c.step n t with
    | error fault' =>
      rw [hstep] at h
      obtain rfl := Except.error.inj h
      refine ⟨0, position?_of_step hstep, ⟨c, rfl⟩, ?_⟩
      rw [List.take_succ_cons, scan, hstep]
    | ok c' =>
      rw [hstep] at h
      obtain ⟨i, hposition, ⟨c'', hpass⟩, hstop⟩ := ih h
      refine ⟨i + 1, ?_, ⟨c'', ?_⟩, ?_⟩
      · rw [hposition, Nat.add_assoc, Nat.add_comm 1]
      · rw [List.take_succ_cons, scan_cons_of_ok hstep, hpass]
      · rw [List.take_succ_cons, scan_cons_of_ok hstep, hstop]

/-- Closing parentheses complete an expression exactly if no value is due and they are as
many as the open groups. -/
theorem scan_closing_iff {closing : List Card} (hclosing : ∀ c ∈ closing, c.op = .closeParen)
    {c : Cursor} {n : Nat} :
    c.scan n (closing.map .operator : Expression α) = .ok ⟨false, 0⟩
      ↔ c = ⟨false, closing.length⟩ := by
  induction closing generalizing c n with
  | nil => exact ⟨fun h => Except.ok.inj h, fun h => congrArg Except.ok h⟩
  | cons card closing ih =>
    obtain ⟨hcard, hclosing⟩ := List.forall_mem_cons.mp hclosing
    have hfix : card.op.fixity = .closing := Operator.fixity_eq_closing_iff.mpr hcard
    obtain ⟨expectValue, depth⟩ := c
    cases expectValue with
    | true => simp [scan, step, hfix]
    | false =>
      cases depth with
      | zero => simp [scan, step, hfix]
      | succ d =>
        rw [List.map_cons, scan_cons_of_ok (step_closing hfix d n), ih hclosing]
        simp

end Cursor

/-! ## What can be completed -/

namespace Expression

open Cursor

theorem validate_of_scan_error {e : Expression α} {fault : ExpressionFault α}
    (h : Cursor.start.scan 1 e = .error fault) : e.validate = .error fault := by
  cases e with
  | nil => cases h
  | cons t e =>
    rw [validate]
    · rw [h]
    · simp

theorem validate_of_scan_ok {e : Expression α} {c : Cursor} (he : e ≠ [])
    (h : Cursor.start.scan 1 e = .ok c) : e.validate = c.finish := by
  rw [validate]
  · rw [h]
  · exact he

/-- A report comes from a token that did not pass, or from the end of an expression whose
tokens all did. -/
theorem scan_of_validate_eq_error {e : Expression α} {fault : ExpressionFault α}
    (h : e.validate = .error fault) :
    Cursor.start.scan 1 e = .error fault
      ∨ (∃ c, Cursor.start.scan 1 e = .ok c) ∧ fault.Unfinished := by
  cases hscan : Cursor.start.scan 1 e with
  | error fault' =>
    rw [validate_of_scan_error hscan] at h
    exact .inl (congrArg Except.error (Except.error.inj h))
  | ok c =>
    refine .inr ⟨⟨c, rfl⟩, ?_⟩
    cases e with
    | nil => exact .inl (Except.error.inj h).symm
    | cons t e =>
      rw [validate_of_scan_ok (List.cons_ne_nil t e) hscan, finish] at h
      split at h
      · exact .inr (.inl (Except.error.inj h).symm)
      · split at h
        · cases h
        · exact .inr (.inr ⟨c.depth, (Except.error.inj h).symm⟩)

/-- **A number of missing parentheses is reported** where the scan ends with so many
groups open and no value due. -/
theorem validate_eq_unclosed_iff {e : Expression α} {k : Nat} :
    e.validate = .error (.unclosedParen k) ↔ k ≠ 0 ∧ Cursor.start.scan 1 e = .ok ⟨false, k⟩ := by
  cases hscan : Cursor.start.scan 1 e with
  | error fault =>
    obtain ⟨i, hposition, -⟩ := exists_of_scan_eq_error hscan
    rw [validate_of_scan_error hscan]
    refine ⟨fun h => ?_, fun h => nomatch h.2⟩
    rw [Except.error.inj h] at hposition
    cases hposition
  | ok c =>
    cases e with
    | nil =>
      obtain rfl := Except.ok.inj hscan
      exact ⟨nofun, fun h => nomatch h.2⟩
    | cons t e =>
      rw [validate_of_scan_ok (List.cons_ne_nil t e) hscan]
      obtain ⟨expectValue, depth⟩ := c
      cases expectValue <;> by_cases hdepth : depth = 0 <;> simp [finish, hdepth]
      · omega
      · rintro rfl
        exact hdepth

/-- **So many parentheses are missing** as complete the expression. -/
theorem validate_unclosed_iff_closed {e : Expression α} {closing : List Card}
    (hclosing : ∀ c ∈ closing, c.op = .closeParen) :
    e.validate = .error (.unclosedParen closing.length)
      ↔ closing ≠ [] ∧ (e ++ closing.map Token.operator).validate = .ok () := by
  rw [validate_eq_unclosed_iff, validate_eq_ok_iff, ne_eq, List.length_eq_zero_iff]
  refine and_congr_right fun _ => ?_
  cases hscan : Cursor.start.scan 1 e with
  | error fault =>
    rw [scan_append_of_error hscan]
    exact ⟨nofun, nofun⟩
  | ok c =>
    rw [scan_append_of_ok hscan, scan_closing_iff hclosing, Except.ok.injEq]

/-- What begins a viable expression is viable. -/
theorem Viable.take {e : Expression α} {i j : Nat} (h : Viable (e.take j)) (hij : i ≤ j) :
    Viable (e.take i) := by
  obtain ⟨rest, hrest⟩ := h
  refine ⟨(e.take j).drop i ++ rest, ?_⟩
  have hsplit : e.take i = (e.take j).take i := by rw [List.take_take, Nat.min_eq_left hij]
  rw [hsplit, ← List.append_assoc, List.take_append_drop]
  exact hrest

variable [Scalar α]

/-- Wherever a scan stands, there is a way to complete the expression. -/
theorem exists_completion (c : Cursor) :
    ∃ rest : Expression α, ∀ n, c.scan n rest = .ok ⟨false, 0⟩ := by
  obtain ⟨expectValue, depth⟩ := c
  have hclosing : ∀ c ∈ List.replicate depth (⟨.closeParen, none⟩ : Card), c.op = .closeParen :=
    fun c hc => by rw [List.eq_of_mem_replicate hc]
  have hclose : ∀ n, Cursor.scan ⟨false, depth⟩ n
      ((List.replicate depth ⟨.closeParen, none⟩).map .operator : Expression α)
        = .ok ⟨false, 0⟩ := fun n =>
    (scan_closing_iff hclosing).mpr (by rw [List.length_replicate])
  cases expectValue with
  | false => exact ⟨_, hclose⟩
  | true => exact ⟨.number (Scalar.ofNat 0) none :: _, fun n => hclose (n + 1)⟩

/-- **The scan lets pass exactly what is viable.** -/
theorem viable_iff {e : Expression α} : e.Viable ↔ ∃ c, Cursor.start.scan 1 e = .ok c := by
  constructor
  · rintro ⟨rest, h⟩
    rw [validate_eq_ok_iff] at h
    cases hscan : Cursor.start.scan 1 e with
    | ok c => exact ⟨c, rfl⟩
    | error fault =>
      rw [scan_append_of_error hscan] at h
      cases h
  · rintro ⟨c, h⟩
    obtain ⟨rest, hrest⟩ := exists_completion (α := α) c
    exact ⟨rest, validate_eq_ok_iff.mpr ((scan_append_of_ok h rest).trans (hrest _))⟩

theorem not_viable_iff {e : Expression α} :
    ¬ e.Viable ↔ ∃ fault, Cursor.start.scan 1 e = .error fault := by
  rw [viable_iff]
  cases Cursor.start.scan 1 e <;> simp

/-! ## What is reported -/

/-- **A position is reported** for the token with which an expression stops being viable,
and only for that one. -/
theorem validate_position_iff {e : Expression α} {p : Nat} :
    (∃ fault, e.validate = .error fault ∧ fault.position? = some p)
      ↔ Viable (e.take (p - 1)) ∧ ¬ Viable (e.take p) := by
  constructor
  · rintro ⟨fault, h, hposition⟩
    rcases scan_of_validate_eq_error h with hscan | ⟨-, hend⟩
    · obtain ⟨i, hi, hpass, hstop⟩ := exists_of_scan_eq_error hscan
      obtain rfl : 1 + i = p := Option.some.inj (hi.symm.trans hposition)
      rw [Nat.add_sub_cancel_left, Nat.add_comm]
      exact ⟨viable_iff.mpr hpass, not_viable_iff.mpr ⟨_, hstop⟩⟩
    · rw [hend.position?_eq_none] at hposition
      cases hposition
  · rintro ⟨hpass, hstop⟩
    obtain ⟨fault, hfault⟩ := not_viable_iff.mp hstop
    have hscan : Cursor.start.scan 1 e = .error fault := by
      rw [← List.take_append_drop p e]
      exact scan_append_of_error hfault _
    obtain ⟨i, hi, hpass', hstop'⟩ := exists_of_scan_eq_error hscan
    -- both tokens are the first with which the expression is not viable
    have hle : ¬ i + 1 ≤ p - 1 := fun hle =>
      not_viable_iff.mpr ⟨_, hstop'⟩ (hpass.take hle)
    have hlt : ¬ p ≤ i := fun hle => hstop ((viable_iff.mpr hpass').take hle)
    refine ⟨fault, validate_of_scan_error hscan, ?_⟩
    rw [hi, show p = 1 + i by omega]

/-- What is reported without a position only lacks something at its end. -/
theorem viable_of_position?_eq_none {e : Expression α} {fault : ExpressionFault α}
    (h : e.validate = .error fault) (hposition : fault.position? = none) :
    e.Viable ∧ fault.Unfinished := by
  rcases scan_of_validate_eq_error h with hscan | ⟨hpass, hend⟩
  · obtain ⟨i, hi, -⟩ := exists_of_scan_eq_error hscan
    rw [hi] at hposition
    cases hposition
  · exact ⟨viable_iff.mpr hpass, hend⟩

/-- **The scan decides the grammar and locates what breaks it.** It accepts what the
grammar derives. Otherwise it names a position, and that is the position of the first
token with which the expression cannot be completed any more; or it names none, and then
the expression is empty, ends where a value is due or leaves groups open, and can be
completed. It says that parentheses are missing exactly if so many, one at least, complete
the expression, wherever their cards are from. -/
theorem validate_reports (e : Expression α) :
    (e.validate = .ok () ↔ Derives .expression e)
      ∧ (∀ p, (∃ fault, e.validate = .error fault ∧ fault.position? = some p)
          ↔ Viable (e.take (p - 1)) ∧ ¬ Viable (e.take p))
      ∧ (∀ fault, e.validate = .error fault → fault.position? = none →
          e.Viable ∧ fault.Unfinished)
      ∧ ∀ closing : List Card, (∀ c ∈ closing, c.op = .closeParen) →
        (e.validate = .error (.unclosedParen closing.length)
          ↔ closing ≠ [] ∧ (e ++ closing.map Token.operator).validate = .ok ()) :=
  ⟨validate_eq_ok_iff_derives, fun _ => validate_position_iff,
    fun _ => viable_of_position?_eq_none, fun _ => validate_unclosed_iff_closed⟩

end Expression

end Arithmancy
