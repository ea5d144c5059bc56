import Arithmancy.Expression.Operator
import Arithmancy.Proofs.Number.Numeral

/-!
# Digits written together

Concatenation goes through text: it writes its two operands one after the other and reads the
numeral that comes of it. It asks that both are integers and that neither is below zero. The
negative zero meets that, since it does not compare below zero, and yet it is written with a minus
sign. So the sign decides what is read (`Operation.concat?_by_sign`): without a sign it is the
number of the digits written together; a sign of the left operand makes the result the opposite
of the right one; and with a sign of the right operand no number is read.
-/

namespace Arithmancy

namespace Operation

open Binary64

/-- The number whose digits are those of `m` and then those of `n`. -/
def joined (m n : ℕ) : ℕ := m * 10 ^ (Nat.log 10 n + 1) + n

theorem digitsValue_joined (m n : ℕ) :
    digitsValue (Nat.toDigits 10 m ++ Nat.toDigits 10 n) = joined m n := by
  rw [digitsValue_append, digitsValue_toDigits, digitsValue_toDigits, length_toDigits, joined]

theorem left_le_joined (m n : ℕ) : m ≤ joined m n :=
  (Nat.le_mul_of_pos_right m (by positivity)).trans (Nat.le_add_right _ n)

theorem right_le_joined (m n : ℕ) : n ≤ joined m n := Nat.le_add_left n _

/-! ## The operands -/

/-- **An operand that is not refused** is a natural number. -/
theorem exists_natural {x : Float} (hneg : ¬x < 0) (hint : Scalar.isInteger x = true) :
    ∃ n : ℕ, value? x = some (n : ℚ) := by
  obtain ⟨z, hz⟩ := isInteger_iff.mp hint
  have hzero : value? (0 : Float) = some ((0 : ℕ) : ℚ) := value?_ofNat (by decide)
  rw [lt_iff hz hzero] at hneg
  have hnonneg : 0 ≤ z := by exact_mod_cast not_lt.mp hneg
  lift z to ℕ using hnonneg
  exact ⟨z, by exact_mod_cast hz⟩

section

variable {a b : Float} {m n : ℕ}

theorem natural_unique (hm : value? a = some (m : ℚ)) (hn : value? a = some (n : ℚ)) : m = n := by
  exact_mod_cast Option.some.inj (hm.symm.trans hn)

/-- **The texts of two operands**, one after the other: digits, with a minus sign before them for
each operand that has one. -/
theorem text_append_toList (ha : value? a = some (m : ℚ)) (hb : value? b = some (n : ℚ))
    (h : joined m n ≤ 2 ^ 53) :
    (text a ++ text b).toList = Decimal.minus (isSigned a)
      ++ (Nat.toDigits 10 m ++ (Decimal.minus (isSigned b) ++ Nat.toDigits 10 n)) := by
  rw [String.toList_append, text_toList ha ((left_le_joined m n).trans h),
    text_toList hb ((right_le_joined m n).trans h), List.append_assoc]

theorem isDigit_of_mem_toDigits : ∀ c ∈ Nat.toDigits 10 n, c.isDigit = true := fun _ =>
  Nat.isDigit_of_mem_toDigits (by decide) le_rfl

theorem read?_of_signed (ha : value? a = some (m : ℚ)) (hb : value? b = some (n : ℚ))
    (h : joined m n ≤ 2 ^ 53) (hsign : isSigned b = true) :
    (Scalar.read? (text a ++ text b) : Option Float) = none := by
  have htext := text_append_toList ha hb h
  rw [hsign] at htext
  rw [Scalar.read?, Decimal.read?_digits_minus htext Nat.toDigits_ne_nil isDigit_of_mem_toDigits]
  rfl

theorem read?_of_unsigned (ha : value? a = some (m : ℚ)) (hb : value? b = some (n : ℚ))
    (h : joined m n ≤ 2 ^ 53) (hsign : isSigned b = false) :
    (Scalar.read? (text a ++ text b) : Option Float)
      = some (if isSigned a then -Float.ofNat (joined m n) else Float.ofNat (joined m n)) := by
  have htext : (text a ++ text b).toList
      = Decimal.minus (isSigned a) ++ (Nat.toDigits 10 m ++ Nat.toDigits 10 n) := by
    rw [text_append_toList ha hb h, hsign]
    rfl
  have hdigits : ∀ c ∈ Nat.toDigits 10 m ++ Nat.toDigits 10 n, c.isDigit = true :=
    List.forall_mem_append.mpr ⟨isDigit_of_mem_toDigits, isDigit_of_mem_toDigits⟩
  rw [Scalar.read?, Decimal.read?_digits htext
    (List.append_ne_nil_of_left_ne_nil Nat.toDigits_ne_nil _) hdigits, digitsValue_joined]
  exact congrArg some (ofDecimal_natural h _)

end

/-! ## The operation -/

/-- **What comes of writing two numbers together**, for all operands that are not refused, as long
as the digits are those of an integer of at most `2 ^ 53`. Without a sign, it is that integer. A
left operand with a sign is zero, and the result is the opposite of the right operand; a right
operand with a sign is zero, and there is no result. -/
theorem concat?_by_sign {a b : Float} (ha : ¬a < 0) (hb : ¬b < 0)
    (hia : Scalar.isInteger a = true) (hib : Scalar.isInteger b = true) :
    ∃ m n : ℕ, value? a = some (m : ℚ) ∧ value? b = some (n : ℚ) ∧
      (joined m n ≤ 2 ^ 53 →
        (isSigned a = false → isSigned b = false → ∃ x, concat? a b = some x ∧
          value? x = some (joined m n : ℚ) ∧ isSigned x = false) ∧
        (isSigned a = true → m = 0 ∧ (isSigned b = false → ∃ x, concat? a b = some x ∧
          value? x = some (-n : ℚ))) ∧
        (isSigned b = true → n = 0 ∧ concat? a b = none)) := by
  obtain ⟨m, hm⟩ := exists_natural ha hia
  obtain ⟨n, hn⟩ := exists_natural hb hib
  refine ⟨m, n, hm, hn, fun h => ?_⟩
  have hguard : (decide (a < 0) || decide (b < 0) || !Scalar.isInteger a || !Scalar.isInteger b)
      = false := by
    simp [ha, hb, hia, hib]
  have hconcat : concat? a b = Scalar.read? (text a ++ text b) :=
    if_neg (Bool.eq_false_iff.mp hguard)
  obtain ⟨hvalue, hplain⟩ := ofNat_exact h
  rw [hconcat]
  refine ⟨fun hsa hsb => ?_, fun hsa => ⟨eq_zero_of_isSigned hm hsa, fun hsb => ?_⟩,
    fun hsb => ⟨eq_zero_of_isSigned hn hsb, read?_of_signed hm hn h hsb⟩⟩
  · have hread := read?_of_unsigned hm hn h hsb
    rw [hsa, if_neg Bool.false_ne_true] at hread
    exact ⟨_, hread, hvalue, hplain⟩
  · have hread := read?_of_unsigned hm hn h hsb
    rw [hsa, if_pos rfl] at hread
    have hzero : joined m n = n := by
      rw [joined, eq_zero_of_isSigned hm hsa, Nat.zero_mul, Nat.zero_add]
    exact ⟨_, hread, by rw [value?_neg hvalue, hzero]⟩

/-- Twelve and three give a hundred and twenty-three. -/
theorem concat?_by_sign_twelve_three :
    ¬(12 : Float) < 0 ∧ ¬(3 : Float) < 0 ∧
      Scalar.isInteger (12 : Float) = true ∧ Scalar.isInteger (3 : Float) = true ∧
      ∃ x : Float, concat? 12 3 = some x ∧ value? x = some 123 := by
  have ha : ¬(12 : Float) < 0 := by decide +kernel
  have hb : ¬(3 : Float) < 0 := by decide +kernel
  have hia : Scalar.isInteger (12 : Float) = true := by decide +kernel
  have hib : Scalar.isInteger (3 : Float) = true := by decide +kernel
  obtain ⟨m, n, hm, hn, hjoined⟩ := concat?_by_sign ha hb hia hib
  obtain rfl : m = 12 := natural_unique hm (value?_ofNat (by decide))
  obtain rfl : n = 3 := natural_unique hn (value?_ofNat (by decide))
  have h123 : joined 12 3 = 123 := by norm_num [joined]
  rw [h123] at hjoined
  obtain ⟨x, hx, hvalue, -⟩ := (hjoined (by norm_num)).1 (by decide +kernel) (by decide +kernel)
  exact ⟨ha, hb, hia, hib, x, hx, by exact_mod_cast hvalue⟩

/-- **The opposite of zero is not refused**, and yet written after five it gives no number, and
before five the number minus five. -/
theorem concat?_opposite_of_zero :
    ¬(5 : Float) < 0 ∧ ¬(-0 : Float) < 0 ∧
      Scalar.isInteger (5 : Float) = true ∧ Scalar.isInteger (-0 : Float) = true ∧
      value? (5 : Float) = some 5 ∧ value? (-0 : Float) = some 0 ∧
      joined 5 0 = 50 ∧ joined 0 5 = 5 ∧
      concat? (5 : Float) (-0) = none ∧
      ∃ x : Float, concat? (-0) 5 = some x ∧ value? x = some (-5) := by
  have hafter : (concat? (5 : Float) (-0)).isNone = true := by decide +kernel
  have hbefore : (concat? (-0 : Float) 5).bind value? = some (-5) := by decide +kernel
  refine ⟨by decide +kernel, by decide +kernel, by decide +kernel, by decide +kernel,
    by decide +kernel, by decide +kernel, by norm_num [joined], by norm_num [joined],
    Option.isNone_iff_eq_none.mp hafter, ?_⟩
  obtain ⟨x, hx, hvalue⟩ := Option.bind_eq_some_iff.mp hbefore
  exact ⟨x, hx, hvalue⟩

end Operation

end Arithmancy
