import Arithmancy.Proofs.Expression.Reordering
import Arithmancy.Proofs.Expression.TreeEvaluation
import Arithmancy.Proofs.Number.RoundHalfUp

/-!
# Where a result leaves the finite numbers

An operation without a finite value ends the evaluation, and so every value on the stack is finite
as long as the numbers of the expression are (`Expression.evaluateTokens_isFinite`). The result is
not one of these values but such a value rounded to three decimal places. Nothing is checked after
that, and rounding multiplies by a thousand first.

So the result of an evaluation is never undefined, but it is infinite as soon as a thousand times
the value behind it is (`Expression.result_isFinite_iff`), though that value has passed every
check.
-/

namespace Arithmancy

/-- Whether a token is a finite number, if it is a number. -/
def Token.isFinite {α : Type} [Scalar α] : Token α → Bool
  | number value _ => Scalar.isFinite value
  | operator _ => true

namespace Expression

/-! ## Values on the stack -/

section

variable {α : Type} [Scalar α]

/-- **The numbers of an expression are finite.** -/
def NumbersFinite (e : Expression α) : Prop := ∀ t ∈ e, t.isFinite = true

instance (e : Expression α) : Decidable e.NumbersFinite :=
  inferInstanceAs (Decidable (∀ t ∈ e, t.isFinite = true))

/-- The values on a stack are finite. -/
def StackFinite (stack : List α) : Prop := ∀ value ∈ stack, Scalar.isFinite value = true

/-- **One token** puts nothing on the stack but a finite number. -/
theorem evaluateStep_isFinite {stack stack' : List α} {t : Token α} (ht : t.isFinite = true)
    (hstack : StackFinite stack) (h : evaluateStep stack t = .ok stack') : StackFinite stack' := by
  rcases evaluateStep_cases h with ⟨v, die, rfl, rfl⟩ | ⟨card, a, below, v, rfl, -, rfl, hv, rfl⟩ |
    ⟨card, a, b, below, v, rfl, -, rfl, hv, rfl⟩
  · exact List.forall_mem_cons.mpr ⟨ht, hstack⟩
  · obtain ⟨-, hbelow⟩ := List.forall_mem_cons.mp hstack
    exact List.forall_mem_cons.mpr ⟨isFinite_of_apply₁ hv, hbelow⟩
  · obtain ⟨-, hstack⟩ := List.forall_mem_cons.mp hstack
    obtain ⟨-, hbelow⟩ := List.forall_mem_cons.mp hstack
    exact List.forall_mem_cons.mpr ⟨isFinite_of_apply₂ hv, hbelow⟩

/-- **Finite numbers are evaluated on a stack of finite numbers.** -/
theorem evaluateTokens_isFinite {stack stack' : List α} {p : Expression α} (hp : p.NumbersFinite)
    (hstack : StackFinite stack) (h : evaluateTokens stack p = .ok stack') :
    StackFinite stack' := by
  induction p generalizing stack with
  | nil =>
    obtain rfl := Except.ok.inj h
    exact hstack
  | cons t p ih =>
    obtain ⟨evaluated, hstep, h⟩ := exists_of_evaluateTokens_cons h
    obtain ⟨ht, hrest⟩ := List.forall_mem_cons.mp hp
    exact ih hrest (evaluateStep_isFinite ht hstack hstep) h

theorem evaluatePostfix_isFinite {p : Expression α} (hp : p.NumbersFinite) {value : α}
    (h : evaluatePostfix p = .ok value) : Scalar.isFinite value = true :=
  evaluateTokens_isFinite hp (List.forall_mem_nil _) (evaluateTokens_of_evaluatePostfix h) value
    List.mem_cons_self

/-- No number comes in on the way into postfix order. -/
theorem NumbersFinite.toPostfix {e : Expression α} (h : e.NumbersFinite) :
    e.toPostfix.NumbersFinite := fun t ht =>
  h t (List.mem_of_mem_filter (e.toPostfix_perm.mem_iff.mp ht))

/-- **A result is a finite number, rounded.** -/
theorem exists_raw {e : Expression α} (he : e.NumbersFinite) {found : Evaluation α}
    (h : e.evaluate = .ok found) :
    ∃ raw, evaluatePostfix e.toPostfix = .ok raw ∧ Scalar.isFinite raw = true
      ∧ found.result = Figures.roundTo raw resultPrecision := by
  rw [evaluate] at h
  cases hvalidate : e.validate with
  | error fault =>
    rw [hvalidate] at h
    cases h
  | ok _ =>
    cases hpostfix : evaluatePostfix e.toPostfix with
    | error fault =>
      rw [hvalidate, hpostfix] at h
      cases h
    | ok raw =>
      rw [hvalidate, hpostfix] at h
      obtain rfl := Except.ok.inj h
      exact ⟨raw, rfl, evaluatePostfix_isFinite he.toPostfix hpostfix, rfl⟩

end

/-! ## The last rounding -/

open Binary64

/-- Three decimal places are scaled by a thousand. -/
theorem value?_scale : value? (Scalar.powInt (10 : Float) resultPrecision) = some 1000 := by
  have hdecode : decode? (Scalar.powInt (10 : Float) resultPrecision)
      = some ⟨false, 125 * 2 ^ 46, -43⟩ := by decide +kernel
  rw [value?_of_decode? hdecode]
  norm_num [Finite.value]

/-- **A result is finite exactly if a thousand times the value before rounding does not overflow.**
Whatever expression of finite numbers is evaluated, the value before rounding is finite, and the
result is never undefined; but from a magnitude of `(2 ^ 1024 - 2 ^ 970) / 1000` on it is
infinite. -/
theorem result_isFinite_iff {e : Expression Float} (he : e.NumbersFinite)
    {found : Evaluation Float} (h : e.evaluate = .ok found) :
    ∃ raw v, evaluatePostfix e.toPostfix = .ok raw ∧ value? raw = some v
      ∧ found.result = Figures.roundTo raw 3 ∧ found.result.isNaN = false
      ∧ (found.result.isFinite = true ↔ |v| * 1000 < 2 ^ 1024 - 2 ^ 970) := by
  obtain ⟨raw, hraw, hfinite, hresult⟩ := exists_raw he h
  obtain ⟨v, hv⟩ := isFinite_iff.mp hfinite
  refine ⟨raw, v, hraw, hv, hresult, ?_⟩
  have hnan (x : Float) : x.isNaN = x.toModel.unpack.isNaN := rfl
  rw [hresult, isFinite_iff, hnan]
  rcases roundTo_cases hv value?_scale (by norm_num) with ⟨hlt, u, hu⟩ | ⟨hge, s, hs⟩
  · refine ⟨?_, iff_of_true ⟨u, hu⟩ hlt⟩
    have hdenotes := value?_eq_some_iff.mp hu
    generalize (Figures.roundTo raw resultPrecision).toModel.unpack = x at hdenotes
    cases hdenotes <;> rfl
  · refine ⟨by rw [hs]; rfl, iff_of_false (fun ⟨u, hu⟩ => ?_) (not_lt.mpr hge)⟩
    have hdenotes := value?_eq_some_iff.mp hu
    rw [hs] at hdenotes
    cases hdenotes

/-- The sum of five and seven stays finite. -/
theorem result_isFinite_sum :
    NumbersFinite ([.number 5 none, .operator ⟨.add, none⟩, .number 7 none] : Expression Float)
      ∧ ∃ found : Evaluation Float,
        evaluate [.number 5 none, .operator ⟨.add, none⟩, .number 7 none] = .ok found
          ∧ found.result.isFinite = true ∧ |(12 : ℚ)| * 1000 < 2 ^ 1024 - 2 ^ 970 := by
  have hnumbers : NumbersFinite
      ([.number 5 none, .operator ⟨.add, none⟩, .number 7 none] : Expression Float) := by
    decide +kernel
  have hevaluate : evaluate
      ([.number 5 none, .operator ⟨.add, none⟩, .number 7 none] : Expression Float)
        = .ok ⟨12, 2, 1⟩ := by decide +kernel
  obtain ⟨raw, v, hraw, hv, -, -, hfinite⟩ := result_isFinite_iff hnumbers hevaluate
  have htwelve : evaluatePostfix (toPostfix
      ([.number 5 none, .operator ⟨.add, none⟩, .number 7 none] : Expression Float)) = .ok 12 := by
    decide +kernel
  obtain rfl : raw = 12 := Except.ok.inj (hraw.symm.trans htwelve)
  obtain rfl : v = 12 := Option.some.inj (hv.symm.trans (value?_ofNat (k := 12) (by decide)))
  have hresult : (12 : Float).isFinite = true := by decide +kernel
  exact ⟨hnumbers, _, hevaluate, hresult, hfinite.mp hresult⟩

/-- Fifteen squared eight times over, multiplied by twenty squared, twice. -/
def squares : Expression Float :=
  .number 15 none :: List.replicate 8 (.operator ⟨.square, none⟩)
    ++ [.operator ⟨.multiply, none⟩, .number 20 none, .operator ⟨.square, none⟩,
      .operator ⟨.multiply, none⟩, .number 20 none, .operator ⟨.square, none⟩]

/-- **A finite value becomes infinite when it is rounded**, though the numbers are no greater than
those on dice. -/
theorem squares_rounded_to_infinity :
    squares.NumbersFinite
      ∧ (∃ raw, evaluatePostfix squares.toPostfix = .ok raw ∧ raw.isFinite = true)
      ∧ ∃ found, squares.evaluate = .ok found ∧ found.result.isFinite = false := by
  have hraw : (evaluatePostfix squares.toPostfix).map Float.isFinite = .ok true := by
    decide +kernel
  have hresult : squares.evaluate.map (fun found => found.result.isFinite) = .ok false := by
    decide +kernel
  refine ⟨by decide +kernel, ?_, ?_⟩
  · cases h : evaluatePostfix squares.toPostfix with
    | error fault => rw [h] at hraw; cases hraw
    | ok raw => rw [h] at hraw; exact ⟨raw, rfl, Except.ok.inj hraw⟩
  · cases h : squares.evaluate with
    | error fault => rw [h] at hresult; cases hresult
    | ok found => rw [h] at hresult; exact ⟨found, rfl, Except.ok.inj hresult⟩

end Expression

end Arithmancy
